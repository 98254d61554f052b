import SceneScript.Proofs.Acceptance
import SceneScript.Proofs.Attachment

/-!
# Warnings in the order of the code

An event that falls back is warned about once, at the moment it is laid out.  The order is that
of the code: the body for a clear flag stands right behind the test and is laid out first, so
the bodies of a test for a set flag come in the reverse of the order in which they were written.

A run that fails has warned about the events that it had come to.  The output does not tell
which those are: an event may have no code, and the code of a test is begun before that of its
bodies.  So a journal is attached to the generator, in which every event is entered when it is
begun.

There is one case in which an event has been begun and is not warned about although it falls
back: an integer in it is too long to be read, or to be told.  Then the run ends with it.
-/

namespace SceneScript

/-! ## The events that are laid out -/

namespace Event

mutual
/-- An event and the events in its bodies, in the order in which they are laid out.  The bodies
of an event that is no test are never laid out. -/
def laidOut : Event → List Event
  | event@(.conditional .ifTrue _ whenTrue whenFalse) =>
    event :: (laidOutAll whenFalse ++ laidOutAll whenTrue)
  | event@(.conditional .ifFalse _ whenTrue whenFalse) =>
    event :: (laidOutAll whenTrue ++ laidOutAll whenFalse)
  | event => [event]

/-- The events of a script, those in bodies included, in the order in which they are laid out. -/
def laidOutAll : List Event → List Event
  | [] => []
  | event :: rest => laidOut event ++ laidOutAll rest
end

theorem laidOut_leaf {event : Event} (h : event.branches? = none) : event.laidOut = [event] := by
  cases event with
  | plain kind args => rfl
  | conditional kind args whenTrue whenFalse =>
      cases kind
      case ifTrue | ifFalse => cases h
      all_goals rfl

theorem laidOut_test {event : Event} {whenSet whenClear : Script}
    (h : event.branches? = some (whenSet, whenClear)) :
    event.laidOut = event :: (laidOutAll whenClear ++ laidOutAll whenSet) := by
  unfold branches? at h
  split at h
  all_goals cases h
  all_goals simp only [laidOut, laidOutAll, List.append_nil]

end Event

/-! ## Runs with a journal -/

/-- Enters every event that is begun. -/
def Listener.journal : Listener (List Event) where
  begun event entered := entered ++ [event]

/-- Lays out a whole script with a journal. -/
def Scope.journal (scope : Scope) (script : Script) : AttachedGeneration (List Event) Program :=
  scope.layOut Listener.journal.steps script

/-- Between two states of a generator the fallbacks of the events, and no others, have been
warned about, in that order. -/
def Scope.Warned (scope : Scope) (before after : Generator) (events : List Event) : Prop :=
  ∃ added, after.warnings = before.warnings ++ added ∧
    added.map Warning.cause = events.filterMap scope.fallback?

namespace Scope.Warned

variable {scope : Scope} {s t u : Generator} {events others : List Event}

theorem of_eq (h : t.warnings = s.warnings) : scope.Warned s t [] :=
  ⟨[], by rw [h, List.append_nil], rfl⟩

theorem trans (h : scope.Warned s t events) (h' : scope.Warned t u others) :
    scope.Warned s u (events ++ others) := by
  obtain ⟨added, hwarnings, hcauses⟩ := h
  obtain ⟨more, hwarnings', hcauses'⟩ := h'
  refine ⟨added ++ more, ?_, ?_⟩
  · rw [hwarnings', hwarnings, List.append_assoc]
  · rw [List.map_append, hcauses, hcauses', List.filterMap_append]

/-- From a generator that has not warned yet. -/
theorem causes (h : scope.Warned {} t events) :
    t.warnings.map Warning.cause = events.filterMap scope.fallback? := by
  obtain ⟨added, hwarnings, hcauses⟩ := h
  rw [hwarnings]
  exact hcauses

/-- An event that does not fall back need not be listed. -/
theorem of_none {event : Event} (h : scope.fallback? event = none) (hwarned : scope.Warned s t []) :
    scope.Warned s t [event] := by
  obtain ⟨added, hwarnings, hcauses⟩ := hwarned
  refine ⟨added, hwarnings, ?_⟩
  rw [hcauses, List.filterMap_cons_none h]

end Scope.Warned

/-- `Reports scope s events run`: a run from `s` that was to lay out `events` has entered them,
or those up to a failure, and warned about what it entered, but for an event with too long an
integer that has ended it. -/
inductive Reports (scope : Scope) (s : Attached (List Event)) (events : List Event) {α : Type} :
    EStateM.Result Fault (Attached (List Event)) α → Prop
  | ok {a : α} {t : Attached (List Event)} :
      t.attached = s.attached ++ events → scope.Warned s.generator t.generator events →
      Reports scope s events (.ok a t)
  | error {fault : Fault} {t : Attached (List Event)} {begun : List Event} :
      begun <+: events → t.attached = s.attached ++ begun →
      scope.Warned s.generator t.generator begun → Reports scope s events (.error fault t)
  | tooLong {e : TooManyDigits} {t : Attached (List Event)} {told : List Event} {event : Event} :
      told ++ [event] <+: events → t.attached = s.attached ++ (told ++ [event]) →
      scope.Warned s.generator t.generator told → ¬ scope.WithinLimits event →
      Reports scope s events (.error (.malformed (.tooManyDigits e)) t)

/-- Wherever the step starts, it reports `events`. -/
def Tells {α : Type} (scope : Scope) (events : List Event) (x : AttachedGeneration (List Event) α) :
    Prop :=
  ∀ s, Reports scope s events (x s)

namespace Tells

open AttachedGeneration

variable {scope : Scope} {α β : Type} {events others : List Event}

theorem pure (a : α) : Tells scope [] (Pure.pure a) := by
  intro s
  exact .ok (List.append_nil _).symm (.of_eq rfl)

theorem lift {x : Generation α} (h : x.Confined) : Tells scope [] (AttachedGeneration.lift x) := by
  intro s
  have hwarnings := h.warnings_eq s.generator
  unfold AttachedGeneration.lift
  cases hrun : x s.generator with
  | ok a t =>
      rw [stateAfter_ok hrun] at hwarnings
      exact .ok (List.append_nil _).symm (.of_eq hwarnings)
  | error fault t =>
      rw [stateAfter_error hrun] at hwarnings
      exact .error List.prefix_rfl (List.append_nil _).symm (.of_eq hwarnings)

/-- Two steps in a row report what they report one after the other.  If the first fails, the
events of the second are not begun. -/
theorem bind {x : AttachedGeneration (List Event) α} {f : α → AttachedGeneration (List Event) β}
    (hx : Tells scope events x) (hf : ∀ a, Tells scope others (f a)) :
    Tells scope (events ++ others) (x >>= f) := by
  intro s
  show Reports scope s (events ++ others) (EStateM.bind x f s)
  unfold EStateM.bind
  have hfirst := hx s
  generalize x s = first at hfirst
  cases hfirst with
  | error hbegun hentered hwarned =>
      exact .error (hbegun.trans (List.prefix_append _ _)) hentered hwarned
  | tooLong hbegun hentered hwarned hlong =>
      exact .tooLong (hbegun.trans (List.prefix_append _ _)) hentered hwarned hlong
  | @ok a middle hentered hwarned =>
      have hsecond := hf a middle
      dsimp only
      generalize f a middle = second at hsecond
      cases hsecond with
      | ok hentered' hwarned' =>
          refine .ok ?_ (hwarned.trans hwarned')
          rw [hentered', hentered, List.append_assoc]
      | error hbegun hentered' hwarned' =>
          refine .error ((List.prefix_append_right_inj events).mpr hbegun) ?_
            (hwarned.trans hwarned')
          rw [hentered', hentered, List.append_assoc]
      | tooLong hbegun hentered' hwarned' hlong =>
          refine .tooLong ?_ ?_ (hwarned.trans hwarned') hlong
          · rw [List.append_assoc]
            exact (List.prefix_append_right_inj events).mpr hbegun
          · rw [hentered', hentered, List.append_assoc, List.append_assoc]

/-! Steps that enter nothing, before and after others. -/

theorem nil_bind {x : AttachedGeneration (List Event) α} {f : α → AttachedGeneration (List Event) β}
    (hx : Tells scope [] x) (hf : ∀ a, Tells scope events (f a)) : Tells scope events (x >>= f) :=
  hx.bind hf

theorem bind_nil {x : AttachedGeneration (List Event) α} {f : α → AttachedGeneration (List Event) β}
    (hx : Tells scope events x) (hf : ∀ a, Tells scope [] (f a)) :
    Tells scope events (x >>= f) := by
  have hboth := hx.bind hf
  rw [List.append_nil] at hboth
  exact hboth

/-- Beginning an event that does not fall back. -/
theorem enter {event : Event} (h : scope.fallback? event = none) :
    Tells scope [event] (Listener.journal.steps.enter event) := by
  intro s
  exact .ok rfl (.of_none h (.of_eq rfl))

end Tells

namespace Scope

open Generation

variable {scope : Scope}

theorem fallback?_of_test {event : Event} {bodies : Script × Script}
    (h : event.branches? = some bodies) : scope.fallback? event = none := by
  unfold fallback?
  rcases Event.kind_of_test h with hkind | hkind
  all_goals rw [hkind]

/-- An event that cannot be emitted holds too long an integer, or it is none of those that fall
back. -/
theorem Refuses.tooLong_or {event : Event} {fault : Fault} (h : scope.Refuses event fault) :
    (∃ e, fault = .malformed (.tooManyDigits e) ∧ ¬ scope.WithinLimits event) ∨
      scope.fallback? event = none := by
  cases h with
  | missing hmissing =>
      refine .inr ?_
      unfold fallback?
      cases hmissing with
      | text hkind => rw [hkind]
      | flag hkind =>
          simp only [List.mem_cons, List.not_mem_nil, or_false] at hkind
          rcases hkind with hkind | hkind | hkind | hkind
          all_goals rw [hkind]
  | speed hkind =>
      refine .inr ?_
      unfold fallback?
      simp only [List.mem_cons, List.not_mem_nil, or_false] at hkind
      rcases hkind with hkind | hkind
      all_goals rw [hkind]
  | encounter hkind hlong => exact .inl ⟨_, rfl, fun hlimits => hlong (hlimits.1 hkind)⟩
  | untold hcause hlong => exact .inl ⟨_, rfl, fun hlimits => hlong (hlimits.2 _ hcause)⟩

/-- Beginning an event that is no test and laying it out: it is warned about, or it fails. -/
theorem tells_leaf {event : Event} (hleaf : event.branches? = none) :
    Tells scope [event] (Listener.journal.steps.enter event >>= fun _ =>
      scope.layOutEvent Listener.journal.steps event) := by
  intro s
  rw [layOutEvent_leaf hleaf]
  cases hemit : scope.emit event.kind event.args with
  | ok emission =>
      have hrun : (Listener.journal.steps.enter event >>= fun _ =>
          Listener.journal.steps.orFail (.ok emission) >>= Listener.journal.steps.place) s =
          .ok () ⟨s.generator.add emission.slots emission.warnings, s.attached ++ [event]⟩ := by
        refine (Listener.journal.place_run emission ⟨s.generator, s.attached ++ [event]⟩).trans ?_
        rw [show (fun heard w => Listener.journal.warned w heard) = fun heard _ => heard from rfl,
          List.foldl_fixed]
      rw [hrun]
      refine .ok rfl ⟨emission.warnings, rfl, ?_⟩
      rw [warnings_emit hemit]
      cases hcause : scope.fallback? event with
      | none => rw [List.filterMap_cons_none hcause]; rfl
      | some w => rw [List.filterMap_cons_some hcause]; rfl
  | error fault =>
      show Reports scope s [event] (.error fault ⟨s.generator, s.attached ++ [event]⟩)
      rcases (refuses_of_emit hemit).tooLong_or with ⟨e, rfl, hlong⟩ | hnone
      · exact .tooLong List.prefix_rfl rfl (.of_eq rfl) hlong
      · exact .error List.prefix_rfl rfl (.of_none hnone (.of_eq rfl))

theorem tells_conditional {args : Fields} {set clear : List Event}
    {whenSet whenClear : AttachedGeneration (List Event) Unit} (hset : Tells scope set whenSet)
    (hclear : Tells scope clear whenClear) :
    Tells scope (clear ++ set)
      (Listener.journal.steps.conditional scope args whenSet whenClear) := by
  refine (Tells.lift (confined_orFail _)).nil_bind fun index => ?_
  refine (Tells.lift (confined_extend _)).nil_bind fun _ => ?_
  refine (Tells.lift confined_reserve).nil_bind fun setAddress => ?_
  refine hclear.bind fun _ => ?_
  refine (Tells.lift (confined_extend _)).nil_bind fun _ => ?_
  refine (Tells.lift confined_reserve).nil_bind fun endAddress => ?_
  refine (Tells.lift (confined_patchHere _)).nil_bind fun _ => ?_
  exact hset.bind_nil fun _ => Tells.lift (confined_patchHere _)

/-- The scan of an event, and the events after it, behind the event itself. -/
theorem tells_cons {event : Event} {rest : Script}
    (hevent : Tells scope event.laidOut (Listener.journal.steps.enter event >>= fun _ =>
      scope.layOutEvent Listener.journal.steps event))
    (hrest : Tells scope (Event.laidOutAll rest) (scope.layOutEvents Listener.journal.steps rest)) :
    Tells scope (Event.laidOutAll (event :: rest))
      (scope.layOutEvents Listener.journal.steps (event :: rest)) := by
  rw [layOutEvents, Event.laidOutAll, ← bind_assoc]
  exact hevent.bind fun _ => (Tells.lift (confined_check _ _)).nil_bind fun _ => hrest

/-- Laying out a script enters its events in the order of the layout. -/
theorem tells_events (script : Script) :
    Tells scope (Event.laidOutAll script) (scope.layOutEvents Listener.journal.steps script) := by
  induction script using Script.induction with
  | nil =>
      rw [layOutEvents]
      exact Tells.pure ()
  | leaf event rest hleaf ih =>
      refine tells_cons ?_ ih
      rw [Event.laidOut_leaf hleaf]
      exact tells_leaf hleaf
  | test event rest whenSet whenClear htest ihSet ihClear ih =>
      refine tells_cons ?_ ih
      rw [Event.laidOut_test htest, layOutEvent_test htest]
      exact (Tells.enter (fallback?_of_test htest)).bind fun _ => tells_conditional ihSet ihClear

theorem tells_journal (script : Script) :
    Tells scope (Event.laidOutAll script) (scope.journal script) := by
  refine Tells.bind_nil ((tells_events script).bind_nil fun _ => ?_) fun _ =>
    Tells.lift confined_freeze
  exact Tells.lift (confined_extend _)

/-- A run that succeeds has begun all events, and warned about them. -/
theorem journal_ok {script : Script} {program : Program} {s t : Generator}
    (h : scope.generate script s = .ok program t) :
    scope.journal script ⟨s, []⟩ = .ok program ⟨t, Event.laidOutAll script⟩ ∧
      scope.Warned s t (Event.laidOutAll script) := by
  have hforget := Listener.journal.forget_layOut scope script ⟨s, []⟩
  have hreports := @tells_journal scope script ⟨s, []⟩
  dsimp only at hforget
  rw [h, ← journal] at hforget
  generalize scope.journal script ⟨s, []⟩ = run at hforget hreports
  cases hreports with
  | ok hentered hwarned =>
      cases hforget
      exact ⟨by rw [← List.nil_append (Event.laidOutAll script), ← hentered], hwarned⟩
  | error => cases hforget
  | tooLong => cases hforget

/-- Of the events that were begun when a run failed, it has come to warn about `told`: all of
them, or all but the last, if the run has failed because an integer in that one is too long. -/
def ToldOf (scope : Scope) (fault : Fault) (begun told : List Event) : Prop :=
  told = begun ∨ ∃ event e, begun = told ++ [event] ∧ ¬ scope.WithinLimits event ∧
    fault = .malformed (.tooManyDigits e)

/-- A run that fails has begun some of the events, up to one, and warned about those, but
perhaps for the last. -/
theorem journal_error {script : Script} {fault : Fault} {s t : Generator}
    (h : scope.generate script s = .error fault t) :
    ∃ begun told, scope.journal script ⟨s, []⟩ = .error fault ⟨t, begun⟩ ∧
      begun <+: Event.laidOutAll script ∧ scope.ToldOf fault begun told ∧
      scope.Warned s t told := by
  have hforget := Listener.journal.forget_layOut scope script ⟨s, []⟩
  have hreports := @tells_journal scope script ⟨s, []⟩
  dsimp only at hforget
  rw [h, ← journal] at hforget
  generalize scope.journal script ⟨s, []⟩ = run at hforget hreports
  cases hreports with
  | ok => cases hforget
  | @error _ _ begun hbegun hentered hwarned =>
      cases hforget
      exact ⟨begun, begun, by rw [← List.nil_append begun, ← hentered], hbegun, .inl rfl, hwarned⟩
  | @tooLong e _ told event hbegun hentered hwarned hlong =>
      cases hforget
      exact ⟨told ++ [event], told, by rw [← List.nil_append (told ++ [event]), ← hentered], hbegun,
        .inr ⟨event, e, rfl, hlong, rfl⟩, hwarned⟩

/-- **Warnings are complete, exact and in the order of the code**, as far as there are words for
them.  A run that keeps a journal is the run of generation.  If it succeeds, it has begun all
events of the script in the order of the layout, and the warnings it added are about the
fallbacks of these events, one for each event that falls back.  If it fails, it has begun the
events up to some point of that order, and warned about just those; only if an integer in the
last of them was too long, it has not warned about that one.  The code of a warning goes with
the kind of the event. -/
theorem warnings_in_layout_order (scope : Scope) (script : Script) (s : Generator) :
    Attached.forget (scope.journal script ⟨s, []⟩) = scope.generate script s ∧
    (∀ program t, scope.generate script s = .ok program t →
      scope.journal script ⟨s, []⟩ = .ok program ⟨t, Event.laidOutAll script⟩ ∧
        scope.Warned s t (Event.laidOutAll script)) ∧
    (∀ fault t, scope.generate script s = .error fault t →
      ∃ begun told, scope.journal script ⟨s, []⟩ = .error fault ⟨t, begun⟩ ∧
        begun <+: Event.laidOutAll script ∧ scope.ToldOf fault begun told ∧ scope.Warned s t told) ∧
    ∀ event cause, scope.fallback? event = some cause →
      (event.kind, cause.code) ∈ Fallback.codes := by
  refine ⟨Listener.journal.forget_layOut scope script ⟨s, []⟩, ?_, ?_, ?_⟩
  · intro program t hrun
    exact journal_ok hrun
  · intro fault t hrun
    exact journal_error hrun
  · intro event cause hcause
    exact code_of_fallback? hcause

end Scope

/-- One flag, and neither scenes nor music. -/
def lampScope : Scope := ⟨{ flags := [.str "lamp"] }, []⟩

/-- If the lamp is set, an event without code; else a track that is gone, and whatever else is
given. -/
def lampScript (others : Script) : Script :=
  [.whenSet (.str "lamp") [.plain .ifValue []]
    (.plain .musicPlay [(.str "musicId", .str "hymn")] :: others)]

/-- The body that was written second is warned about first.  A text that is not in the table
stops the run before it has come to the other body. -/
theorem warnings_in_layout_order_lamp :
    (∃ program t, lampScope.generate (lampScript []) {} = .ok program t ∧
      t.warnings.map Warning.cause = [.musicNotFound (.str "hymn"), .noBytecode .ifValue]) ∧
    ∃ fault t begun, lampScope.generate (lampScript [.plain .text []]) {} = .error fault t ∧
      lampScope.journal (lampScript [.plain .text []]) ⟨{}, []⟩ = .error fault ⟨t, begun⟩ ∧
      begun.map Event.kind = [.ifTrue, .musicPlay, .text] ∧
      t.warnings.map Warning.cause = [.musicNotFound (.str "hymn")] := by
  constructor
  · have hwarned := ((Scope.warnings_in_layout_order lampScope (lampScript []) {}).2.1 _ _ rfl).2
    exact ⟨_, _, rfl, hwarned.causes⟩
  · obtain ⟨begun, told, hjournal, -, htold, hwarned⟩ :=
      (Scope.warnings_in_layout_order lampScope (lampScript [.plain .text []]) {}).2.2.1 _ _ rfl
    cases hjournal
    rcases htold with rfl | ⟨event, e, -, -, hfault⟩
    · exact ⟨_, _, _, rfl, rfl, rfl, hwarned.causes⟩
    · cases hfault

/-! ## An encounter that is too long -/

/-- A battle whose encounter is a minus and so many nines. -/
def Event.minusNines (count : Nat) : Event :=
  .plain .startBattle [(.str "encounter", Operand.minusNines count)]

/-- It falls back, since the encounter is negative. -/
theorem Scope.fallback?_minusNines (scope : Scope) {count : Nat} (h : 0 < count) :
    scope.fallback? (.minusNines count) = some (.invalidEncounter (Operand.minusNines count)) := by
  show (if (Operand.encounter? (Operand.minusNines count)).any (0 ≤ ·) then none
    else some (Fallback.invalidEncounter (Operand.minusNines count))) = _
  rw [Operand.encounter?_minusNines h]
  rfl

/-- But with nines beyond the limit there is no warning: the run fails when it reads them. -/
theorem Scope.journal_minusNines (scope : Scope) {count : Nat} (h : digitLimit < count) :
    ∃ e, scope.journal [.minusNines count] ⟨{}, []⟩ =
      .error (.malformed (.tooManyDigits e)) ⟨{}, [.minusNines count]⟩ := by
  obtain ⟨e, hread⟩ := Operand.leadingInteger_of_not_legible (Operand.not_legible_minusNines h)
  have hemit : scope.emit (Event.minusNines count).kind (Event.minusNines count).args =
      .error (.malformed (.tooManyDigits e)) :=
    emit_error.mpr (.inl (result_bind_error.mpr (.inl hread)))
  have hevents : scope.layOutEvents Listener.journal.steps [.minusNines count] ⟨{}, []⟩ =
      .error (.malformed (.tooManyDigits e)) ⟨{}, [.minusNines count]⟩ := by
    rw [layOutEvents, layOutEvent_leaf rfl, hemit]
    rfl
  exact ⟨e, bind_error.mpr (.inl (bind_error.mpr (.inl hevents)))⟩

/-- A battle that falls back is begun and not warned about. -/
theorem journal_five_thousand_nines :
    (lampScope.fallback? (.minusNines 5000)).isSome ∧
    ∃ fault t,
      lampScope.journal [.minusNines 5000] ⟨{}, []⟩ = .error fault ⟨t, [.minusNines 5000]⟩ ∧
        t.warnings = [] := by
  obtain ⟨e, hrun⟩ := lampScope.journal_minusNines (show digitLimit < 5000 by decide)
  exact ⟨by rw [lampScope.fallback?_minusNines (by decide)]; rfl, _, _, hrun, rfl⟩

end SceneScript
