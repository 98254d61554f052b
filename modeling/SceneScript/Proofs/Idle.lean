import SceneScript.Proofs.Blame
import SceneScript.Proofs.Journal

/-!
# Events without code

Some events contribute no code: the end mark of a list, a kind that has none, a switch to a
scene that is gone, a battle whose encounter is not a natural number, and a wait or a shake
whose time is spent.  They can be removed from a script at every depth.  The script compiles
before just when it compiles after, to the same program, and the warnings that go are those
about the events that went.

The one thing that such an event may do to a script is to hold an integer that is too long: then
it cannot be laid out at all, and its script does not compile before it is removed.

An event without code is scanned after all, and in a body that scan comes while the test around
it is open.  It can find nothing but what a later scan would find too, so it does not decide
whether the script compiles.  But it may be the one that stops a script which does not: without
the event the run goes on for a while, and fails in the name of another event.  So the two runs
are followed side by side, `Generation.Follows`: they end alike, or the script with the events
failed at one of them, and then the other script has warned about as much at least.

That a scan decides nothing is not seen in the runs themselves.  It is in the plans: both
scripts come to the same drafts at every base.
-/

namespace SceneScript

/-! ## Removing the events without code -/

/-- A number that leaves no time. -/
def Value.isSpent : Value → Bool
  | .int n => n ≤ 0
  | .float x => !x.isPositive
  | _ => false

namespace Scope

/-- Whether an event has no code, as its kind and its arguments tell. -/
def isIdle (scope : Scope) (event : Event) : Bool :=
  match event.kind with
  | .listEnd | .ifValue => true
  | .switchScene => !scope.symbols.scenes.any (Symbols.hasId (event.args.get "sceneId"))
  | .startBattle => !(Operand.encounter? (event.args.get "encounter")).any (0 ≤ ·)
  | .wait | .cameraShake => (event.args.get "time").isSpent
  | _ => false

/-- Those of the events that have no code can be laid out: no integer in them is too long. -/
def IdleWithinLimits (scope : Scope) (events : List Event) : Prop :=
  ∀ event ∈ events, scope.isIdle event = true → scope.WithinLimits event

mutual
/-- An event with its bodies pruned. -/
def pruneEvent (scope : Scope) : Event → Event
  | .plain kind args => .plain kind args
  | .conditional kind args whenTrue whenFalse =>
    .conditional kind args (prune scope whenTrue) (prune scope whenFalse)

/-- A script without its events that have no code, at every depth. -/
def prune (scope : Scope) : List Event → List Event
  | [] => []
  | event :: rest =>
    if scope.isIdle event then prune scope rest else pruneEvent scope event :: prune scope rest
end

variable {scope : Scope}

theorem kind_pruneEvent (event : Event) : (scope.pruneEvent event).kind = event.kind := by
  cases event with
  | plain kind args => rfl
  | conditional kind args whenTrue whenFalse => rfl

theorem args_pruneEvent (event : Event) : (scope.pruneEvent event).args = event.args := by
  cases event with
  | plain kind args => rfl
  | conditional kind args whenTrue whenFalse => rfl

theorem branches?_pruneEvent (event : Event) :
    (scope.pruneEvent event).branches? =
      event.branches?.map fun bodies => (scope.prune bodies.1, scope.prune bodies.2) := by
  cases event with
  | plain kind args => cases kind <;> rfl
  | conditional kind args whenTrue whenFalse => cases kind <;> rfl

theorem prune_idle {event : Event} (h : scope.isIdle event = true) (rest : Script) :
    scope.prune (event :: rest) = scope.prune rest := by
  rw [prune, if_pos h]

theorem prune_busy {event : Event} (h : scope.isIdle event = false) (rest : Script) :
    scope.prune (event :: rest) = scope.pruneEvent event :: scope.prune rest := by
  rw [prune, if_neg (Bool.eq_false_iff.mp h)]

theorem isIdle_of_test {event : Event} {bodies : Script × Script}
    (h : event.branches? = some bodies) : scope.isIdle event = false := by
  unfold isIdle
  rcases Event.kind_of_test h with hkind | hkind
  all_goals rw [hkind]

theorem leaf_of_idle {event : Event} (h : scope.isIdle event = true) : event.branches? = none := by
  cases hbranches : event.branches? with
  | none => rfl
  | some bodies =>
      rw [isIdle_of_test hbranches] at h
      cases h

/-! ## What an event without code contributes -/

theorem chunks_of_isSpent {time : Value} (h : time.isSpent = true) :
    (Seconds.ofArgument time).chunks = [] := by
  have hleft : (Seconds.ofArgument time).isPositive = false := by
    unfold Value.isSpent at h
    split at h
    case h_1 n => simpa [Seconds.ofArgument, Seconds.isPositive] using h
    case h_2 x => simpa [Seconds.ofArgument, Seconds.isPositive] using h
    case h_3 => cases h
  unfold Seconds.chunks
  cases (Seconds.ofArgument time).roundedUp with
  | zero => rfl
  | succ count => rw [Seconds.chunksUpTo, hleft]; rfl

/-- The recipe of an event without code has no draft. -/
theorem drafts_recipe_idle {event : Event} (h : scope.isIdle event = true) {r : Recipe}
    (hr : scope.recipe event.kind event.args = .ok r) : r.drafts = [] := by
  unfold isIdle at h
  cases hkind : event.kind
  all_goals rw [hkind] at h hr
  case listEnd | ifValue =>
    cases hr
    rfl
  case switchScene =>
    cases hr
    rw [emitSwitchScene, Symbols.entryIndex?_of_unlisted h]
    rfl
  case startBattle =>
    obtain ⟨number, hnumber, rfl⟩ := emitStartBattle_ok.mp hr
    obtain ⟨-, rfl⟩ := Operand.leadingInteger_ok.mp hnumber
    cases hencounter : Operand.encounter? (event.args.get "encounter") with
    | none => rfl
    | some n =>
        rw [hencounter] at h
        have hn : n < 0 := by simpa using h
        rw [battle, if_pos hn]
        rfl
  case wait | cameraShake =>
    cases hr
    rw [emitTicks, chunks_of_isSpent h]
    rfl
  all_goals cases h

theorem drafts_emit_idle {event : Event} (h : scope.isIdle event = true) {e : Emission}
    (hemit : scope.emit event.kind event.args = .ok e) : e.drafts = [] := by
  obtain ⟨r, hr, hemission⟩ := result_bind_ok.mp hemit
  rw [(Recipe.emission_ok.mp hemission).1]
  exact drafts_recipe_idle h hr

/-- An event without code asks nothing of its arguments. -/
theorem accepts_idle {event : Event} (h : scope.isIdle event = true) :
    scope.Accepts event.kind event.args := by
  unfold isIdle at h
  cases hkind : event.kind
  all_goals rw [hkind] at h
  case listEnd | ifValue | wait | cameraShake => exact trivial
  case switchScene =>
    intro index hindex
    rw [Symbols.entryIndex?_of_unlisted h] at hindex
    cases hindex
  case startBattle =>
    intro n hn hpos
    rw [hn] at h
    have hneg : n < 0 := by simpa using h
    exact absurd hpos (Int.not_le.mpr hneg)
  all_goals cases h

/-- An event without code emits no draft, if no integer in it is too long; otherwise it emits
nothing. -/
theorem emit_idle_iff {event : Event} (h : scope.isIdle event = true) :
    (∃ warnings, scope.emit event.kind event.args = .ok ⟨[], warnings⟩) ↔
      scope.WithinLimits event := by
  have hleaf := leaf_of_idle h
  constructor
  · rintro ⟨warnings, hemit⟩
    have hfits : (⟨[], warnings⟩ : Emission).Fits := fun _ hd => absurd hd List.not_mem_nil
    exact ((acceptsAt_leaf hleaf 0).mpr ⟨_, hemit, hfits⟩).2.2
  · intro hlimits
    have hkind : event.kind.isConditional = false := by
      rw [event.isConditional_kind, hleaf]
      rfl
    obtain ⟨⟨drafts, warnings⟩, hemit, -⟩ := (acceptsAt_leaf hleaf 0).mp
      ⟨accepts_idle h, fun hconditional => absurd hkind (by rw [hconditional]; decide), hlimits⟩
    obtain rfl : drafts = [] := drafts_emit_idle h hemit
    exact ⟨warnings, hemit⟩

end Scope

/-- Whether an event is left out, and not something put in the place of what it names. -/
def Fallback.isDropping : Fallback → Bool
  | .actorNotInScene _ | .musicNotFound _ => false
  | .sceneNotFound _ | .invalidEncounter _ | .noBytecode _ => true

/-- Whether a warning does not say that an event was left out. -/
def Warning.isKept (w : Warning) : Bool := !w.cause.isDropping

namespace Scope

variable {scope : Scope}

/-- The events that are left out are those without code. -/
theorem isDropping_of_fallback? {event : Event} {cause : Fallback}
    (h : scope.fallback? event = some cause) : cause.isDropping = scope.isIdle event := by
  rw [isIdle]
  cases fallsBack_of_fallback? h with
  | code hkind => rw [hkind]; rfl
  | scene hkind hnone => rw [hkind, hnone]; rfl
  | encounter hkind hnone => rw [hkind, hnone]; rfl
  | track hkind => rw [hkind]; rfl
  | actor hkind =>
      simp only [List.mem_cons, List.not_mem_nil, or_false] at hkind
      rcases hkind with hkind | hkind | hkind | hkind | hkind | hkind
      all_goals
        rw [hkind]
        rfl

/-- The fallbacks of those of the events that have code. -/
def busyFallbacks (scope : Scope) (events : List Event) : List Fallback :=
  (events.filter fun event => !scope.isIdle event).filterMap scope.fallback?

theorem filter_fallbacks (events : List Event) :
    (events.filterMap scope.fallback?).filter (fun cause => !cause.isDropping) =
      scope.busyFallbacks events := by
  unfold busyFallbacks
  induction events with
  | nil => rfl
  | cons event rest ih =>
      cases hcause : scope.fallback? event with
      | none =>
          rw [List.filterMap_cons_none hcause, ih, List.filter_cons]
          split
          · rw [List.filterMap_cons_none hcause]
          · rfl
      | some cause =>
          rw [List.filterMap_cons_some hcause, List.filter_cons, List.filter_cons,
            isDropping_of_fallback? hcause]
          split
          · rw [List.filterMap_cons_some hcause, ih]
          · exact ih

/-- The warnings that are kept are about the events that have code. -/
theorem causes_kept {warnings : List Warning} {events : List Event}
    (h : warnings.map Warning.cause = events.filterMap scope.fallback?) :
    (warnings.filter Warning.isKept).map Warning.cause = scope.busyFallbacks events := by
  rw [← filter_fallbacks, ← h, List.filter_map]
  rfl

/-- Of what an event brings, its warning is kept if the event is. -/
theorem filter_warnings_emit {event : Event} {emission : Emission}
    (h : scope.emit event.kind event.args = .ok emission) :
    emission.warnings.filter Warning.isKept =
      if scope.isIdle event then [] else emission.warnings := by
  have hcauses := warnings_emit h
  have hall : ∀ w ∈ emission.warnings, w.isKept = !scope.isIdle event := by
    intro w hw
    have hcause : w.cause ∈ (scope.fallback? event).toList := hcauses ▸ List.mem_map_of_mem hw
    rw [Warning.isKept, isDropping_of_fallback? (Option.mem_toList.mp hcause)]
  cases hidle : scope.isIdle event with
  | true =>
      refine List.filter_eq_nil_iff.mpr fun w hw => ?_
      rw [hall w hw, hidle]
      exact Bool.false_ne_true
  | false =>
      refine List.filter_eq_self.mpr fun w hw => ?_
      rw [hall w hw, hidle]
      rfl

end Scope

/-! ## Side by side -/

/-- A state of generation without the warnings about events that were left out. -/
def Generator.kept (s : Generator) : Generator := ⟨s.output, s.warnings.filter Warning.isKept⟩

/-- The end of a run without those warnings. -/
def Generator.keptEnd {α : Type} : EStateM.Result Fault Generator α →
    EStateM.Result Fault Generator α
  | .ok a s => .ok a s.kept
  | .error fault s => .error fault s.kept

theorem Generator.kept_add (s : Generator) (slots : List Value) (warnings : List Warning) :
    (s.add slots warnings).kept = s.kept.add slots (warnings.filter Warning.isKept) := by
  simp only [kept, add, List.filter_append]

/-- The fault is that of a scan, in the name of an event without code. -/
def Scope.BlamesIdle (scope : Scope) (fault : Fault) : Prop :=
  ∃ event position value, scope.isIdle event = true ∧
    fault = .compile (.outputFailed (.str event.kind.command) (.object event.args) position value)

namespace Generation

/-- `Follows scope x y`: from states that differ in warnings about events that were left out,
`x` and `y` end in states that differ just so, or `x` fails in the name of an event without code
and `y` warns about as much at least. -/
structure Follows {α : Type} (scope : Scope) (x y : Generation α) : Prop where
  grows : ∀ s, s.warnings <+: (stateAfter y s).warnings
  ends : ∀ s, y s.kept = Generator.keptEnd (x s) ∨
    ∃ fault t, x s = .error fault t ∧ scope.BlamesIdle fault ∧
      t.kept.warnings <+: (stateAfter y s.kept).warnings

variable {scope : Scope}

/-- A step on the output alone follows itself. -/
theorem Confined.follows {α : Type} {x : Generation α} (h : x.Confined) : Follows scope x x where
  grows s := ⟨[], by rw [List.append_nil, h.warnings_eq]⟩
  ends s := by
    refine .inl ?_
    rw [Generator.kept, h, h s.output s.warnings]
    cases x ⟨s.output, []⟩ with
    | ok a t => rfl
    | error fault t => rfl

theorem Follows.bind {α β : Type} {x y : Generation α} {f g : α → Generation β}
    (hx : Follows scope x y) (hf : ∀ a, Follows scope (f a) (g a)) :
    Follows scope (x >>= f) (y >>= g) where
  grows s := by
    rcases stateAfter_bind y g s with ⟨fault, herror⟩ | ⟨a, t, hok, hafter⟩
    · rw [← stateAfter_error herror]
      exact hx.grows s
    · rw [hafter]
      refine List.IsPrefix.trans ?_ ((hf a).grows t)
      rw [← stateAfter_ok hok]
      exact hx.grows s
  ends s := by
    rcases hx.ends s with hsame | ⟨fault, t, herror, hblame, hwarnings⟩
    · cases hrun : x s with
      | error fault t =>
          rw [hrun] at hsame
          refine .inl ?_
          rw [bind_error.mpr (.inl hrun), bind_error.mpr (.inl hsame)]
          rfl
      | ok a t =>
          rw [hrun] at hsame
          rw [stateAfter, bind_run hsame g, bind_run hrun f]
          exact (hf a).ends t
    -- `x` has failed alone: `y` and then `g` go on, and only add to the warnings
    · refine .inr ⟨fault, t, bind_error.mpr (.inl herror), hblame, ?_⟩
      rcases stateAfter_bind y g s.kept with ⟨fault', herror'⟩ | ⟨a, u, hok, hafter⟩
      · rw [stateAfter_error herror'] at hwarnings
        exact hwarnings
      · rw [stateAfter_ok hok] at hwarnings
        rw [hafter]
        exact hwarnings.trans ((hf a).grows u)

/-- The bodies of a conditional may be replaced by bodies that follow them. -/
theorem follows_conditional {args : Fields}
    {whenSet whenClear whenSet' whenClear' : Generation Unit}
    (hset : Follows scope whenSet whenSet') (hclear : Follows scope whenClear whenClear') :
    Follows scope (conditional scope args whenSet whenClear)
      (conditional scope args whenSet' whenClear') := by
  refine (confined_orFail _).follows.bind fun index => ?_
  refine (confined_extend _).follows.bind fun _ => ?_
  refine confined_reserve.follows.bind fun setAddress => ?_
  refine hclear.bind fun _ => ?_
  refine (confined_extend _).follows.bind fun _ => ?_
  refine confined_reserve.follows.bind fun endAddress => ?_
  refine (confined_patchHere _).follows.bind fun _ => ?_
  exact hset.bind fun _ => (confined_patchHere _).follows

end Generation

namespace Scope

open Generation

variable {scope : Scope}

/-- An event that has code, and is no test, is warned about with and without the others. -/
theorem follows_leaf {event : Event} (hleaf : event.branches? = none)
    (hbusy : scope.isIdle event = false) :
    Follows scope (scope.generateEvent event) (scope.generateEvent event) := by
  rw [generateEvent_leaf hleaf]
  cases hemit : scope.emit event.kind event.args with
  | error e => exact ⟨fun s => List.prefix_rfl, fun s => .inl rfl⟩
  | ok emission =>
      have hkept : emission.warnings.filter Warning.isKept = emission.warnings := by
        rw [filter_warnings_emit hemit, if_neg (Bool.eq_false_iff.mp hbusy)]
      have hrun : ∀ s, (orFail (.ok emission) >>= place) s =
          .ok () (s.add emission.slots emission.warnings) := fun s => place_run emission s
      refine ⟨fun s => ?_, fun s => .inl ?_⟩
      · rw [stateAfter_ok (hrun s)]
        exact List.prefix_append _ _
      · rw [hrun, hrun]
        show EStateM.Result.ok () _ = EStateM.Result.ok () (Generator.kept _)
        rw [Generator.kept_add, hkept]

theorem generateEvent_pruneEvent_leaf {event : Event} (hleaf : event.branches? = none) :
    scope.generateEvent (scope.pruneEvent event) = scope.generateEvent event := by
  have hleaf' : (scope.pruneEvent event).branches? = none := by
    rw [branches?_pruneEvent, hleaf]
    rfl
  rw [generateEvent_leaf hleaf', generateEvent_leaf hleaf, kind_pruneEvent, args_pruneEvent]

/-- An event without code adds nothing but a warning that is not kept. -/
theorem generateEvent_idle {event : Event} (h : scope.isIdle event = true)
    (hlimits : scope.WithinLimits event) (s : Generator) :
    ∃ t, scope.generateEvent event s = .ok () t ∧ t.kept = s.kept := by
  obtain ⟨warnings, hemit⟩ := (emit_idle_iff h).mpr hlimits
  refine ⟨_, (generateEvent_leaf_ok (leaf_of_idle h)).mpr ⟨_, hemit, rfl⟩, ?_⟩
  have hnone := filter_warnings_emit hemit
  rw [if_pos h] at hnone
  rw [Generator.kept_add, hnone]
  exact Generator.add_nil _

/-- The scan after it changes nothing, or fails in its name. -/
theorem follows_idle {event : Event} {rest rest' : Script} (hidle : scope.isIdle event = true)
    (hlimits : scope.WithinLimits event)
    (hrest : Follows scope (scope.generateEvents rest) (scope.generateEvents rest')) :
    Follows scope (scope.generateEvents (event :: rest)) (scope.generateEvents rest') where
  grows := hrest.grows
  ends s := by
    obtain ⟨t, hevent, hkept⟩ := generateEvent_idle hidle hlimits s
    rw [generateEvents_cons, bind_run hevent, ← hkept]
    cases hcheck : check (.str event.kind.command) (.object event.args) t with
    | ok _ u =>
        obtain ⟨-, rfl⟩ := check_ok.mp hcheck
        rw [bind_run hcheck]
        exact hrest.ends _
    | error fault u =>
        -- what the scan found stood in the output before the event; the other run has no scan here
        obtain ⟨position, value, -, rfl, rfl⟩ := check_error.mp hcheck
        exact .inr ⟨_, _, bind_error.mpr (.inl hcheck), ⟨event, _, _, hidle, rfl⟩, hrest.grows _⟩

theorem follows_cons {event other : Event} {rest rest' : Script} (hkind : other.kind = event.kind)
    (hargs : other.args = event.args)
    (hevent : Follows scope (scope.generateEvent event) (scope.generateEvent other))
    (hrest : Follows scope (scope.generateEvents rest) (scope.generateEvents rest')) :
    Follows scope (scope.generateEvents (event :: rest))
      (scope.generateEvents (other :: rest')) := by
  rw [generateEvents_cons, generateEvents_cons, hkind, hargs]
  exact hevent.bind fun _ => (confined_check _ _).follows.bind fun _ => hrest

/-! The events that are laid out, by the shape of the script. -/

theorem idleWithinLimits_leaf {event : Event} {rest : Script} (hleaf : event.branches? = none) :
    scope.IdleWithinLimits (Event.laidOutAll (event :: rest)) ↔
      (scope.isIdle event = true → scope.WithinLimits event) ∧
        scope.IdleWithinLimits (Event.laidOutAll rest) := by
  rw [Event.laidOutAll, Event.laidOut_leaf hleaf]
  exact List.forall_mem_cons

theorem idleWithinLimits_test {event : Event} {rest whenSet whenClear : Script}
    (htest : event.branches? = some (whenSet, whenClear)) :
    scope.IdleWithinLimits (Event.laidOutAll (event :: rest)) ↔
      scope.IdleWithinLimits (Event.laidOutAll whenSet) ∧
        scope.IdleWithinLimits (Event.laidOutAll whenClear) ∧
        scope.IdleWithinLimits (Event.laidOutAll rest) := by
  have hbusy : scope.isIdle event = true → scope.WithinLimits event :=
    fun _ => withinLimits_test htest
  rw [Event.laidOutAll, Event.laidOut_test htest, IdleWithinLimits, List.forall_mem_append,
    List.forall_mem_cons, List.forall_mem_append, and_iff_right hbusy]
  constructor
  · rintro ⟨⟨hclear, hset⟩, hrest⟩
    exact ⟨hset, hclear, hrest⟩
  · rintro ⟨hset, hclear, hrest⟩
    exact ⟨⟨hclear, hset⟩, hrest⟩

/-- Laying out a script is followed by laying out the script that is pruned. -/
theorem follows_prune {script : Script}
    (hlimits : scope.IdleWithinLimits (Event.laidOutAll script)) :
    Follows scope (scope.generateEvents script) (scope.generateEvents (scope.prune script)) := by
  induction script using Script.induction with
  | nil =>
      rw [prune, generateEvents_nil]
      exact ⟨fun s => List.prefix_rfl, fun s => .inl rfl⟩
  | leaf event rest hleaf ih =>
      obtain ⟨hevent, hrest⟩ := (idleWithinLimits_leaf hleaf).mp hlimits
      specialize ih hrest
      cases hidle : scope.isIdle event with
      | true =>
          rw [prune_idle hidle]
          exact follows_idle hidle (hevent hidle) ih
      | false =>
          rw [prune_busy hidle]
          refine follows_cons (kind_pruneEvent event) (args_pruneEvent event) ?_ ih
          rw [generateEvent_pruneEvent_leaf hleaf]
          exact follows_leaf hleaf hidle
  | test event rest whenSet whenClear htest ihSet ihClear ih =>
      obtain ⟨hset, hclear, hrest⟩ := (idleWithinLimits_test htest).mp hlimits
      have htest' : (scope.pruneEvent event).branches? =
          some (scope.prune whenSet, scope.prune whenClear) := by
        rw [branches?_pruneEvent, htest]
        rfl
      rw [prune_busy (isIdle_of_test htest)]
      refine follows_cons (kind_pruneEvent event) (args_pruneEvent event) ?_ (ih hrest)
      rw [generateEvent_test htest, generateEvent_test htest', args_pruneEvent]
      exact follows_conditional (ihSet hset) (ihClear hclear)

theorem follows_generate {script : Script}
    (hlimits : scope.IdleWithinLimits (Event.laidOutAll script)) :
    Follows scope (scope.generate script) (scope.generate (scope.prune script)) := by
  rw [generate_eq, generate_eq, generateBlock_eq, generateBlock_eq, bind_assoc, bind_assoc]
  refine (follows_prune hlimits).bind fun _ => ?_
  exact (confined_extend _).follows.bind fun _ => confined_freeze.follows

/-! ## Plans without the events -/

theorem size_eq_of_drafts {plan other : Plan} (h : ∀ base, plan.drafts base = other.drafts base) :
    plan.size = other.size := by
  rw [← Plan.length_slots plan 0, ← Plan.length_slots other 0, Plan.slots, Plan.slots, h]

/-- A plan of the script that is pruned has the drafts of a plan of the script. -/
theorem planned_of_prune {script : Script} {plan : Plan}
    (hlimits : scope.IdleWithinLimits (Event.laidOutAll script))
    (h : Planned scope (scope.prune script) plan) :
    ∃ full, Planned scope script full ∧ ∀ base, full.drafts base = plan.drafts base := by
  induction script using Script.induction generalizing plan with
  | nil =>
      rw [prune] at h
      exact ⟨plan, h, fun _ => rfl⟩
  | leaf event rest hleaf ih =>
      obtain ⟨hevent, hlimitsRest⟩ := (idleWithinLimits_leaf hleaf).mp hlimits
      cases hidle : scope.isIdle event with
      | true =>
          rw [prune_idle hidle] at h
          obtain ⟨next, hnext, hdrafts⟩ := ih hlimitsRest h
          obtain ⟨warnings, hemit⟩ := (emit_idle_iff hidle).mpr (hevent hidle)
          exact ⟨_, .leaf hleaf hemit hnext, hdrafts⟩
      | false =>
          rw [prune_busy hidle] at h
          cases h with
          | leaf _ hemit hrest =>
              rw [kind_pruneEvent, args_pruneEvent] at hemit
              obtain ⟨next, hnext, hdrafts⟩ := ih hlimitsRest hrest
              refine ⟨_, .leaf hleaf hemit hnext, fun base => ?_⟩
              rw [Plan.drafts, Plan.drafts, hdrafts]
          | test htest =>
              rw [branches?_pruneEvent, hleaf] at htest
              cases htest
  | test event rest whenSet whenClear htest ihSet ihClear ih =>
      obtain ⟨hlimitsSet, hlimitsClear, hlimitsRest⟩ := (idleWithinLimits_test htest).mp hlimits
      rw [prune_busy (isIdle_of_test htest)] at h
      cases h with
      | leaf hleaf =>
          rw [branches?_pruneEvent, htest] at hleaf
          cases hleaf
      | test htest' hflag hset hclear hrest =>
          rw [branches?_pruneEvent, htest] at htest'
          cases htest'
          rw [args_pruneEvent] at hflag
          obtain ⟨set, hplanSet, hset⟩ := ihSet hlimitsSet hset
          obtain ⟨clear, hplanClear, hclear⟩ := ihClear hlimitsClear hclear
          obtain ⟨next, hnext, hdrafts⟩ := ih hlimitsRest hrest
          refine ⟨_, .test htest hflag hplanSet hplanClear hnext, fun base => ?_⟩
          simp only [Plan.drafts, size_eq_of_drafts hset, size_eq_of_drafts hclear, hset,
            hclear, hdrafts]

/-- The events without code that stand in a plan are within the limits. -/
theorem idleWithinLimits_of_planned {script : Script} {plan : Plan}
    (h : Planned scope script plan) : scope.IdleWithinLimits (Event.laidOutAll script) := by
  induction h with
  | nil => exact fun _ hevent => absurd hevent List.not_mem_nil
  | @leaf event rest emission next hleaf hemit _ ih =>
      refine (idleWithinLimits_leaf hleaf).mpr ⟨fun hidle => (emit_idle_iff hidle).mp ?_, ih⟩
      obtain ⟨drafts, warnings⟩ := emission
      obtain rfl : drafts = [] := drafts_emit_idle hidle hemit
      exact ⟨warnings, hemit⟩
  | test htest _ _ _ _ ihSet ihClear ih =>
      exact (idleWithinLimits_test htest).mpr ⟨ihSet, ihClear, ih⟩

/-- What compiles without the events compiles with them, if they are within the limits. -/
theorem generate_of_prune {script : Script} {program : Program} {t : Generator}
    (hlimits : scope.IdleWithinLimits (Event.laidOutAll script))
    (h : scope.generate (scope.prune script) {} = .ok program t) :
    ∃ t', scope.generate script {} = .ok program t' := by
  obtain ⟨plan, hplan, hfits, -, rfl⟩ := generate_ok_iff.mp h
  obtain ⟨full, hfull, hdrafts⟩ := planned_of_prune hlimits hplan
  refine ⟨_, generate_ok_iff.mpr ⟨full, hfull, ?_, rfl, ?_⟩⟩
  · rw [hdrafts]
    exact hfits
  · rw [Plan.whole, Plan.whole, hdrafts]

/-! ## Whole runs -/

theorem idleWithinLimits_of_generate {script : Script} {program : Program} {t : Generator}
    (h : scope.generate script {} = .ok program t) :
    scope.IdleWithinLimits (Event.laidOutAll script) := by
  obtain ⟨plan, hplan, -, -, -⟩ := generate_ok_iff.mp h
  exact idleWithinLimits_of_planned hplan

theorem prune_ok {script : Script} {program : Program} {t : Generator}
    (h : scope.generate script {} = .ok program t) :
    scope.generate (scope.prune script) {} = .ok program t.kept := by
  rcases (follows_generate (idleWithinLimits_of_generate h)).ends {} with
    hsame | ⟨fault, t', herror, -, -⟩
  · rw [h] at hsame
    exact hsame
  · rw [h] at herror
    cases herror

theorem prune_error {script : Script} {fault : Fault} {t : Generator}
    (hlimits : scope.IdleWithinLimits (Event.laidOutAll script))
    (h : scope.generate script {} = .error fault t) :
    scope.generate (scope.prune script) {} = .error fault t.kept ∨
      scope.BlamesIdle fault ∧ ∃ fault' t',
        scope.generate (scope.prune script) {} = .error fault' t' ∧
          t.kept.warnings <+: t'.warnings := by
  rcases (follows_generate hlimits).ends {} with hsame | ⟨_, _, herror, hblame, hwarnings⟩
  · rw [h] at hsame
    exact .inl hsame
  · rw [h] at herror
    cases herror
    cases hrun : scope.generate (scope.prune script) {} with
    | ok program t' =>
        obtain ⟨full, hfull⟩ := generate_of_prune hlimits hrun
        rw [h] at hfull
        cases hfull
    | error fault' t' =>
        refine .inr ⟨hblame, fault', t', rfl, ?_⟩
        rw [← stateAfter_error hrun]
        exact hwarnings

/-- **Events without code may be removed.**  A script gives a program just when the script that
is pruned gives it and no integer is too long in an event that was removed.  The output is the
same then, and the warnings without the events are the warnings with them, but for those about
the events that were removed.

If the script fails, though no integer is too long in an event that was removed, so does the one
that is pruned.  It fails with the same fault, leaves the same output and has warned about the
same events, those that were removed excepted.  But if the scan after one of those was what
failed, it may get further, fail with another fault and warn about more; so of scripts that fail
the warnings need not agree.

Of times it is only said that they have chunks; the loop that produces them does not end for the
largest floats and for infinity. -/
theorem generate_prune (scope : Scope) (script : Script) :
    (∀ program, (∃ t, scope.generate script {} = .ok program t) ↔
      scope.IdleWithinLimits (Event.laidOutAll script) ∧
        ∃ t, scope.generate (scope.prune script) {} = .ok program t) ∧
    (∀ program t, scope.generate script {} = .ok program t →
      t.warnings.map Warning.cause = (Event.laidOutAll script).filterMap scope.fallback? ∧
      ∃ t', scope.generate (scope.prune script) {} = .ok program t' ∧ t'.output = t.output ∧
        t'.warnings = t.warnings.filter Warning.isKept ∧
        t'.warnings.map Warning.cause = scope.busyFallbacks (Event.laidOutAll script)) ∧
    ∀ fault t, scope.generate script {} = .error fault t →
      scope.IdleWithinLimits (Event.laidOutAll script) →
      ∃ begun told fault' t', scope.journal script ⟨{}, []⟩ = .error fault ⟨t, begun⟩ ∧
        scope.ToldOf fault begun told ∧
        t.warnings.map Warning.cause = told.filterMap scope.fallback? ∧
        scope.generate (scope.prune script) {} = .error fault' t' ∧
        scope.busyFallbacks told <+: t'.warnings.map Warning.cause ∧
        (¬ scope.BlamesIdle fault →
          fault' = fault ∧ t'.output = t.output ∧
          t'.warnings.map Warning.cause = scope.busyFallbacks told) := by
  refine ⟨?_, ?_, ?_⟩
  · intro program
    constructor
    · rintro ⟨t, hrun⟩
      exact ⟨idleWithinLimits_of_generate hrun, _, prune_ok hrun⟩
    · rintro ⟨hlimits, t, hrun⟩
      exact generate_of_prune hlimits hrun
  · intro program t hrun
    have hcauses := (journal_ok hrun).2.causes
    exact ⟨hcauses, _, prune_ok hrun, rfl, rfl, causes_kept hcauses⟩
  · intro fault t hrun hlimits
    obtain ⟨begun, told, hjournal, -, htold, hwarned⟩ := journal_error hrun
    have hcauses := hwarned.causes
    have hkept : t.kept.warnings.map Warning.cause = scope.busyFallbacks told := causes_kept hcauses
    rcases prune_error hlimits hrun with hpruned | ⟨hblame, fault', t', hpruned, hmore⟩
    · exact ⟨begun, told, fault, t.kept, hjournal, htold, hcauses, hpruned,
        ⟨[], by rw [List.append_nil, hkept]⟩, fun _ => ⟨rfl, rfl, hkept⟩⟩
    · have hprefix := hmore.map Warning.cause
      rw [hkept] at hprefix
      exact ⟨begun, told, fault', t', hjournal, htold, hcauses, hpruned, hprefix,
        fun hnot => absurd hblame hnot⟩

end Scope

/-- An end mark, and a test: if the lamp is set, wait for no time; else a scene and a track that
are gone, and whatever else is given. -/
def idleScript (others : Script) : Script :=
  [.plain .listEnd [], .whenSet (.str "lamp") [.plain .wait [(.str "time", .int 0)]]
    (.plain .switchScene [(.str "sceneId", .str "attic")] ::
      .plain .musicPlay [(.str "musicId", .str "hymn")] :: others)]

/-- Of its events without code, only the switch to the attic falls back, and that is short. -/
theorem idleWithinLimits_lamp :
    lampScope.IdleWithinLimits (Event.laidOutAll (idleScript [.plain .text []])) := by
  intro event hevent hidle
  simp only [idleScript, Event.laidOutAll, Event.laidOut, Event.whenSet, List.mem_append,
    List.mem_cons, List.not_mem_nil, or_false] at hevent
  have hnone : ∀ {other : Event}, other.kind ≠ .startBattle → lampScope.fallback? other = none →
      lampScope.WithinLimits other := by
    intro other hkind hcause
    refine ⟨fun hbattle => absurd hbattle hkind, fun cause hsome => ?_⟩
    rw [hcause] at hsome
    cases hsome
  rcases hevent with rfl | rfl | (rfl | rfl | rfl) | rfl
  · exact hnone (by decide) rfl
  · cases hidle
  · refine ⟨fun hbattle => (by cases hbattle), fun cause hcause => ?_⟩
    cases hcause
    exact Value.short_str "attic"
  · cases hidle
  · cases hidle
  · exact hnone (by decide) rfl

/-- If the door is set, a track that is gone; else an end mark. -/
def doorScript : Script :=
  [.whenSet (.str "door") [.plain .musicPlay [(.str "musicId", .str "hymn")]] [.plain .listEnd []]]

/-- The index of the door does not fit in a word.  The scan after the end mark says so, before
the other body is begun; without the end mark there is no scan there. -/
theorem generate_door :
    (∃ t, crowdedScope.generate doorScript {} =
      .error (.compile (.outputFailed (.str "EVENT_END") (.object []) (.nat 1) (.int 256))) t ∧
      t.warnings = []) ∧
    ∃ fault t, crowdedScope.generate (crowdedScope.prune doorScript) {} = .error fault t ∧
      t.warnings.map Warning.cause = [.musicNotFound (.str "hymn")] := by
  have hpruned : crowdedScope.prune doorScript =
      [.whenSet (.str "door") [.plain .musicPlay [(.str "musicId", .str "hymn")]] []] := rfl
  have hflag : ∀ whenSet whenClear, Symbols.flagIndex crowdedScope.symbols.flags
      ((Event.whenSet (.str "door") whenSet whenClear).args.get "flag") = .ok 0x10000 :=
    fun _ _ => flagIndex_crowded
  have hmusic : crowdedScope.symbols.music = [] := rfl
  rw [hpruned]
  -- the table of flags is not gone through: all that matters of the scope is in the two equations
  generalize crowdedScope = scope at hflag hmusic ⊢
  obtain ⟨⟨strings, flags, scenes, music, sceneActors⟩, actors⟩ := scope
  obtain rfl : music = [] := hmusic
  constructor
  · rw [Scope.generate_eq, Scope.generateBlock_eq, doorScript, Scope.generateEvents_cons,
      Scope.generateEvent_test rfl, Generation.conditional_eq, hflag]
    exact ⟨_, rfl, rfl⟩
  · rw [Scope.generate_eq, Scope.generateBlock_eq, Scope.generateEvents_cons,
      Scope.generateEvent_test rfl, Generation.conditional_eq, hflag]
    exact ⟨_, _, rfl, rfl⟩

/-- Two scripts that end alike with the events without code and without them, one that compiles
and one with a text that is not in the table, and one that gets further without them. -/
theorem generate_prune_lamp_and_door :
    (∃ program t t', lampScope.generate (idleScript []) {} = .ok program t ∧
      t.warnings.map Warning.cause = [.sceneNotFound (.str "attic"), .musicNotFound (.str "hymn")] ∧
      lampScope.generate (lampScope.prune (idleScript [])) {} = .ok program t' ∧
      t'.warnings.map Warning.cause = [.musicNotFound (.str "hymn")]) ∧
    (∃ fault t t', lampScope.generate (idleScript [.plain .text []]) {} = .error fault t ∧
      lampScope.generate (lampScope.prune (idleScript [.plain .text []])) {} = .error fault t' ∧
      t'.warnings.map Warning.cause = [.musicNotFound (.str "hymn")]) ∧
    ∃ fault fault' t t' w, crowdedScope.generate doorScript {} = .error fault t ∧ t.warnings = [] ∧
      crowdedScope.generate (crowdedScope.prune doorScript) {} = .error fault' t' ∧
      t'.warnings.map Warning.cause = [w] ∧ crowdedScope.BlamesIdle fault := by
  refine ⟨?_, ?_, ?_⟩
  · obtain ⟨hwarnings, t', hpruned, -, -, hbusy⟩ :=
      (Scope.generate_prune lampScope (idleScript [])).2.1 _ _ rfl
    exact ⟨_, _, t', rfl, hwarnings, hpruned, hbusy⟩
  · obtain ⟨begun, told, fault', t', hjournal, htold, -, hpruned, -, hexact⟩ :=
      (Scope.generate_prune lampScope (idleScript [.plain .text []])).2.2 _ _ rfl
        idleWithinLimits_lamp
    cases hjournal
    rcases htold with rfl | ⟨event, e, -, -, hfault⟩
    · obtain ⟨rfl, -, hwarnings⟩ := hexact (by
        rintro ⟨event, position, value, -, hfault⟩
        cases hfault)
      exact ⟨_, _, t', rfl, hpruned, hwarnings⟩
    · cases hfault
  · obtain ⟨⟨t, hrun, hwarnings⟩, fault', t', hpruned, hmore⟩ := generate_door
    exact ⟨_, fault', t, t', _, hrun, hwarnings, hpruned, hmore, .plain .listEnd [], _, _, rfl, rfl⟩

/-- A battle that is left out, but for which the script would compile. -/
theorem generate_prune_five_thousand_nines :
    lampScope.isIdle (.minusNines 5000) ∧
    (∃ fault t, lampScope.generate [.minusNines 5000] {} = .error fault t) ∧
    ∃ t, lampScope.generate (lampScope.prune [.minusNines 5000]) {} = .ok [0] t := by
  have hidle : lampScope.isIdle (.minusNines 5000) = true := by
    show (!(Operand.encounter? (Operand.minusNines 5000)).any (0 ≤ ·)) = true
    rw [Operand.encounter?_minusNines (by decide)]
    rfl
  refine ⟨hidle, ?_, ?_⟩
  · obtain ⟨e, hrun⟩ := lampScope.journal_minusNines (show digitLimit < 5000 by decide)
    have hforget := Listener.journal.forget_layOut lampScope [.minusNines 5000] ⟨{}, []⟩
    rw [← Scope.journal, hrun] at hforget
    exact ⟨_, _, hforget.symm⟩
  · rw [Scope.prune_idle hidle]
    exact ⟨_, rfl⟩

end SceneScript
