import SceneScript.Proofs.Failure

/-!
# Broken output is never finished

A generator can be called on after a failure.  Its output stays as the failure left it, and
later calls write behind it.  The output may be broken by then: a slot that is no byte was
found, or a test was begun and never completed, so that an address in it is open.

No call repairs this.  Whatever a call does, and however it ends, it only adds to what stood in
the output before it; the slots it patches are its own.  So a broken slot stays as it is for
ever, and since a program is only given out when every slot is a byte, a generator whose output
is broken never gives out another one.
-/

namespace SceneScript

/-! ## Calls -/

/-- A call on a generator. -/
inductive Call where
  | generate (script : Script)
  | block (script : Script) (isBody : Bool)
  | event (event : Event)
  | check (command args : Value)
  | freeze

/-- The events that a call lays out. -/
def Call.script : Call → Script
  | .generate script | .block script _ => script
  | .event laid => [laid]
  | .check .. | .freeze => []

/-- What a call does.  A program comes back from the two calls that ask for one. -/
def Scope.run (scope : Scope) : Call → Generation (Option Program)
  | .generate script => do return some (← scope.generate script)
  | .block script isBody => do
    scope.generateBlock script isBody
    return none
  | .event event => do
    scope.generateEvent event
    return none
  | .check command args => do
    Generation.check command args
    return none
  | .freeze => do return some (← Generation.freeze)

/-- The state after calls that were made one after the other, whether they succeeded or failed. -/
def Scope.after (scope : Scope) : List Call → Generator → Generator
  | [], s => s
  | call :: rest, s => scope.after rest (stateAfter (scope.run call) s)

/-! ## Steps that only add -/

/-- The step only adds to the output and the warnings, whether it succeeds or fails. -/
def Generation.OnlyAdds {α : Type} (x : Generation α) : Prop :=
  ∀ s, ∃ slots warnings, stateAfter x s = s.add slots warnings

namespace Generation

theorem onlyAdds_of_unchanged {α : Type} {x : Generation α} (h : ∀ s, stateAfter x s = s) :
    x.OnlyAdds := by
  intro s
  exact ⟨[], [], by rw [h, s.add_nil]⟩

theorem OnlyAdds.bind {α β : Type} {x : Generation α} {f : α → Generation β} (hx : x.OnlyAdds)
    (hf : ∀ a, (f a).OnlyAdds) : (x >>= f).OnlyAdds := by
  intro s
  obtain ⟨slots, warnings, hs⟩ := hx s
  rcases stateAfter_bind x f s with ⟨fault, herror⟩ | ⟨a, t, hok, hafter⟩
  · rw [← stateAfter_error herror]
    exact ⟨slots, warnings, hs⟩
  · rw [stateAfter_ok hok] at hs
    obtain ⟨more, others, ht⟩ := hf a t
    exact ⟨slots ++ more, warnings ++ others, by rw [hafter, ht, hs, Generator.add_add]⟩

theorem onlyAdds_pure {α : Type} (a : α) : (pure a : Generation α).OnlyAdds :=
  onlyAdds_of_unchanged fun _ => rfl

theorem onlyAdds_extend (values : List Value) : (extend values).OnlyAdds := by
  intro s
  exact ⟨values, [], stateAfter_ok (extend_run values s)⟩

theorem onlyAdds_check (command args : Value) : (check command args).OnlyAdds := by
  refine onlyAdds_of_unchanged fun s => ?_
  cases hrun : check command args s with
  | ok _ t => rw [stateAfter_ok hrun, (check_ok.mp hrun).2]
  | error fault t =>
      obtain ⟨_, _, -, -, rfl⟩ := check_error.mp hrun
      exact stateAfter_error hrun

/-- Asking for the program fails on an open slot, or as the scan does. -/
theorem freeze_error {fault : Fault} {s t : Generator} :
    freeze s = .error fault t ↔ s.output.freeze = .error fault ∧ t = s := by
  rw [freeze, get_bind]
  cases s.output.freeze with
  | ok program =>
      show EStateM.Result.ok program s = _ ↔ _
      simp
  | error other =>
      show EStateM.Result.error other s = _ ↔ _
      simp [eq_comm]

theorem onlyAdds_freeze : freeze.OnlyAdds := by
  refine onlyAdds_of_unchanged fun s => ?_
  cases hrun : freeze s with
  | ok program t => rw [stateAfter_ok hrun, (freeze_ok.mp hrun).2]
  | error fault t => rw [stateAfter_error hrun, (freeze_error.mp hrun).2]

end Generation

namespace Scope

open Generation

variable {scope : Scope}

/-- An event that fails is a script of one event that fails. -/
theorem fails_of_event_error {event : Event} {fault : Fault} {s t : Generator}
    (h : scope.generateEvent event s = .error fault t) : scope.Fails [event] s fault t := by
  apply fails_of_error
  rw [generateEvents_cons]
  exact bind_error.mpr (.inl h)

theorem onlyAdds_generateEvents (script : Script) : (scope.generateEvents script).OnlyAdds := by
  intro s
  cases hrun : scope.generateEvents script s with
  | ok _ t =>
      obtain ⟨plan, -, hadd, -⟩ := generateEvents_ok hrun
      exact ⟨_, _, (stateAfter_ok hrun).trans hadd⟩
  | error fault t =>
      obtain ⟨slots, warnings, hadd⟩ := (fails_of_error hrun).adds
      exact ⟨slots, warnings, (stateAfter_error hrun).trans hadd⟩

theorem onlyAdds_generateEvent (event : Event) : (scope.generateEvent event).OnlyAdds := by
  intro s
  cases hrun : scope.generateEvent event s with
  | ok _ t =>
      obtain ⟨slots, warnings, hadd, -⟩ := generateEvent_adds hrun
      exact ⟨slots, warnings, (stateAfter_ok hrun).trans hadd⟩
  | error fault t =>
      obtain ⟨slots, warnings, hadd⟩ := (fails_of_event_error hrun).adds
      exact ⟨slots, warnings, (stateAfter_error hrun).trans hadd⟩

theorem onlyAdds_generateBlock (script : Script) (isBody : Bool) :
    (scope.generateBlock script isBody).OnlyAdds := by
  refine (onlyAdds_generateEvents script).bind fun _ => ?_
  cases isBody with
  | true => exact onlyAdds_pure ()
  | false => exact onlyAdds_extend _

theorem onlyAdds_run (call : Call) : (scope.run call).OnlyAdds := by
  cases call with
  | generate script =>
      exact OnlyAdds.bind ((onlyAdds_generateBlock script false).bind fun _ => onlyAdds_freeze)
        fun _ => onlyAdds_pure _
  | block script isBody =>
      exact (onlyAdds_generateBlock script isBody).bind fun _ => onlyAdds_pure _
  | event event => exact (onlyAdds_generateEvent event).bind fun _ => onlyAdds_pure _
  | check command args => exact (onlyAdds_check command args).bind fun _ => onlyAdds_pure _
  | freeze => exact onlyAdds_freeze.bind fun _ => onlyAdds_pure _

/-- Calls only add, however many there are and however they end. -/
theorem after_adds (calls : List Call) (s : Generator) :
    ∃ slots warnings, scope.after calls s = s.add slots warnings := by
  induction calls generalizing s with
  | nil => exact ⟨[], [], s.add_nil.symm⟩
  | cons call rest ih =>
      obtain ⟨slots, warnings, hcall⟩ := scope.onlyAdds_run call s
      obtain ⟨more, others, hrest⟩ := ih (s.add slots warnings)
      refine ⟨slots ++ more, warnings ++ others, ?_⟩
      rw [after, hcall, hrest, Generator.add_add]

end Scope

/-! ## Broken output -/

/-- A slot of the output is open, or holds something that is no byte. -/
def Output.Broken (out : Output) : Prop := ∃ slot ∈ out.slots, slot.byte? = none

namespace Output

theorem not_broken_of_freeze {out : Output} {program : Program} (h : out.freeze = .ok program) :
    ¬ out.Broken := by
  rintro ⟨slot, hslot, hnone⟩
  have hsome := (freeze_ok.mp h).1 slot hslot
  rw [hnone] at hsome
  cases hsome

theorem broken_of_stray {out : Output} {position : Nat} {value : Value}
    (h : out.stray? = some (position, value)) : out.Broken := by
  obtain ⟨hslot, hbad⟩ := stray?_eq_some h
  refine ⟨value, List.mem_of_getElem? hslot, ?_⟩
  cases hbyte : value.byte? with
  | none => rfl
  | some b =>
      rw [acceptable, hbyte, Option.isSome_some, Bool.or_true] at hbad
      cases hbad

theorem broken_of_freeze {out : Output} {fault : Fault} (h : out.freeze = .error fault) :
    out.Broken := by
  apply Classical.byContradiction
  intro hwhole
  have hbytes : ∀ slot ∈ out.slots, slot.byte?.isSome := by
    intro slot hslot
    cases hbyte : slot.byte? with
    | none => exact absurd ⟨slot, hslot, hbyte⟩ hwhole
    | some b => rfl
  rw [freeze_ok.mpr ⟨hbytes, rfl⟩] at h
  cases h

end Output

namespace Generator

theorem broken_add {s : Generator} (h : s.output.Broken) (slots : List Value)
    (warnings : List Warning) : (s.add slots warnings).output.Broken := by
  obtain ⟨slot, hslot, hnone⟩ := h
  exact ⟨slot, by rw [slots_add]; exact List.mem_append_left _ hslot, hnone⟩

theorem broken_of_open {s : Generator} {slots : List Value} {warnings : List Warning}
    (h : .null ∈ slots) : (s.add slots warnings).output.Broken :=
  ⟨.null, by rw [slots_add]; exact List.mem_append_right _ h, rfl⟩

theorem broken_opened (s : Generator) (flag : Nat) : (s.opened flag).output.Broken :=
  broken_of_open (by simp)

theorem broken_turned (s : Generator) (flag : Nat) (clear : List Value) (warnings : List Warning) :
    (s.turned flag clear warnings).output.Broken :=
  broken_of_open (by simp)

end Generator

/-! ## What breaks the output -/

namespace Scope

variable {scope : Scope}

/-- Laying out the script fails inside a test: the flag of the test is known, so that its first
address has been reserved, and the failure comes before its last one is patched.  A failure
anywhere in its bodies, however deep, is one inside the test. -/
def CutShort (scope : Scope) (script : Script) (s : Generator) : Prop :=
  ∃ before event rest bodies flag u fault t, script = before ++ event :: rest ∧
    scope.generateEvents before s = .ok () u ∧ event.branches? = some bodies ∧
    Symbols.flagIndex scope.symbols.flags (event.args.get "flag") = .ok flag ∧
    scope.generateEvent event u = .error fault t

/-- A run that fails because of the output leaves it broken. -/
theorem Fails.broken {script : Script} {fault : Fault} {s t : Generator}
    (h : scope.Fails script s fault t) (hfault : fault.IsOutputFailed) : t.output.Broken := by
  induction h with
  | refused _ hemit => exact absurd hfault (refuses_of_emit hemit).not_outputFailed
  | flag htest hflag => exact absurd hfault (refuses_of_flagIndex htest hflag).not_outputFailed
  | inClear _ _ _ ih => exact ih hfault
  | setAddress =>
      exact Generator.broken_add (Generator.broken_add (Generator.broken_opened _ _) _ _) _ _
  | inSet _ _ _ _ _ _ ih => exact ih hfault
  | endAddress => exact Generator.broken_add (Generator.broken_turned _ _ _ _) _ _
  | scan _ hstray => exact Output.broken_of_stray hstray
  | later _ _ _ ih => exact ih hfault

/-- A test that fails after its flag was found leaves one of its addresses open. -/
theorem broken_of_test_error {event : Event} {bodies : Script × Script} {flag : Nat} {fault : Fault}
    {s t : Generator} (htest : event.branches? = some bodies)
    (hflag : Symbols.flagIndex scope.symbols.flags (event.args.get "flag") = .ok flag)
    (h : scope.generateEvent event s = .error fault t) : t.output.Broken := by
  cases fails_of_event_error h with
  | refused hleaf =>
      rw [htest] at hleaf
      cases hleaf
  | flag _ hmissing =>
      rw [hflag] at hmissing
      cases hmissing
  | inClear _ _ hclear =>
      obtain ⟨slots, warnings, rfl⟩ := hclear.adds
      exact Generator.broken_add (Generator.broken_opened _ _) _ _
  | setAddress =>
      exact Generator.broken_add (Generator.broken_add (Generator.broken_opened _ _) _ _) _ _
  | inSet _ _ _ _ _ hset =>
      obtain ⟨slots, warnings, rfl⟩ := hset.adds
      exact Generator.broken_add (Generator.broken_turned _ _ _ _) _ _
  | endAddress => exact Generator.broken_add (Generator.broken_turned _ _ _ _) _ _
  | scan hok =>
      rw [hok] at h
      cases h
  | later hok =>
      rw [hok] at h
      cases h

theorem generateEvents_append_error {before more : Script} {fault : Fault} {s u t : Generator}
    (hbefore : scope.generateEvents before s = .ok () u)
    (hmore : scope.generateEvents more u = .error fault t) :
    scope.generateEvents (before ++ more) s = .error fault t := by
  induction before generalizing s with
  | nil =>
      rw [generateEvents_nil] at hbefore
      cases hbefore
      exact hmore
  | cons event rest ih =>
      obtain ⟨v, hevent, hscan, hrest⟩ := generateEvents_cons_ok.mp hbefore
      rw [List.cons_append, generateEvents_cons]
      refine bind_error.mpr (.inr ⟨(), v, hevent, ?_⟩)
      exact bind_error.mpr (.inr ⟨(), v, Generation.check_ok.mpr ⟨hscan, rfl⟩, ih hrest⟩)

theorem CutShort.error {script : Script} {s : Generator} (h : scope.CutShort script s) :
    ∃ fault t, scope.generateEvents script s = .error fault t ∧ t.output.Broken := by
  obtain ⟨before, event, rest, bodies, flag, u, fault, t, rfl, hbefore, htest, hflag, herror⟩ := h
  have hmore : scope.generateEvents (event :: rest) u = .error fault t := by
    rw [generateEvents_cons]
    exact bind_error.mpr (.inl herror)
  exact ⟨fault, t, generateEvents_append_error hbefore hmore,
    broken_of_test_error htest hflag herror⟩

theorem CutShort.event_error {event : Event} {s : Generator} (h : scope.CutShort [event] s) :
    ∃ fault t, scope.generateEvent event s = .error fault t ∧ t.output.Broken := by
  obtain ⟨before, cut, rest, bodies, flag, u, fault, t, hscript, hbefore, htest, hflag, herror⟩ := h
  cases before with
  | nil =>
      cases hscript
      rw [generateEvents_nil] at hbefore
      cases hbefore
      exact ⟨fault, t, herror, broken_of_test_error htest hflag herror⟩
  | cons first others =>
      injection hscript with _ hrest
      exact absurd hrest (by simp)

theorem CutShort.not_nil {s : Generator} : ¬ scope.CutShort [] s := by
  rintro ⟨before, event, rest, _, _, _, _, _, hscript, -⟩
  exact absurd hscript (by simp)

/-! ## What a failing call leaves -/

/-- A call that fails because of the output leaves it broken. -/
theorem broken_of_outputFailed {call : Call} {fault : Fault} {s t : Generator}
    (h : scope.run call s = .error fault t) (hfault : fault.IsOutputFailed) : t.output.Broken := by
  cases call with
  | generate script =>
      rcases bind_error.mp (return_error.mp h) with hblock | ⟨_, u, -, hfreeze⟩
      · exact (fails_of_error (generateBlock_error.mp hblock)).broken hfault
      · obtain ⟨hfreeze, rfl⟩ := Generation.freeze_error.mp hfreeze
        exact Output.broken_of_freeze hfreeze
  | block script isBody =>
      exact (fails_of_error (generateBlock_error.mp (return_error.mp h))).broken hfault
  | event laid => exact (fails_of_event_error (return_error.mp h)).broken hfault
  | check command args =>
      obtain ⟨position, value, hstray, -, rfl⟩ := Generation.check_error.mp (return_error.mp h)
      exact Output.broken_of_stray hstray
  | freeze =>
      obtain ⟨hfreeze, rfl⟩ := Generation.freeze_error.mp (return_error.mp h)
      exact Output.broken_of_freeze hfreeze

/-- A call that is cut short inside a test fails and leaves the output broken. -/
theorem broken_of_cutShort {call : Call} {s : Generator} (h : scope.CutShort call.script s) :
    ∃ fault t, scope.run call s = .error fault t ∧ t.output.Broken := by
  cases call with
  | generate script =>
      obtain ⟨fault, t, hevents, hbroken⟩ := h.error
      have hgenerate : scope.generate script s = .error fault t :=
        bind_error.mpr (.inl (generateBlock_error.mpr hevents))
      exact ⟨fault, t, return_error.mpr hgenerate, hbroken⟩
  | block script isBody =>
      obtain ⟨fault, t, hevents, hbroken⟩ := h.error
      exact ⟨fault, t, return_error.mpr (generateBlock_error.mpr hevents), hbroken⟩
  | event laid =>
      obtain ⟨fault, t, hevent, hbroken⟩ := h.event_error
      exact ⟨fault, t, return_error.mpr hevent, hbroken⟩
  | check command args => exact absurd h CutShort.not_nil
  | freeze => exact absurd h CutShort.not_nil

/-- A call that gives a program back has found every slot to be a byte. -/
theorem not_broken_of_run {call : Call} {program : Program} {s t : Generator}
    (h : scope.run call s = .ok (some program) t) : ¬ t.output.Broken := by
  cases call with
  | generate script =>
      obtain ⟨_, hgenerate, -⟩ := return_ok.mp h
      obtain ⟨_, u, -, hfreeze⟩ := bind_ok.mp hgenerate
      obtain ⟨hfreeze, rfl⟩ := Generation.freeze_ok.mp hfreeze
      exact Output.not_broken_of_freeze hfreeze
  | freeze =>
      obtain ⟨_, hfreeze, -⟩ := return_ok.mp h
      obtain ⟨hfreeze, rfl⟩ := Generation.freeze_ok.mp hfreeze
      exact Output.not_broken_of_freeze hfreeze
  | block script isBody =>
      obtain ⟨_, -, hnone⟩ := return_ok.mp h
      cases hnone
  | event laid =>
      obtain ⟨_, -, hnone⟩ := return_ok.mp h
      cases hnone
  | check command args =>
      obtain ⟨_, -, hnone⟩ := return_ok.mp h
      cases hnone

/-- Neither a later call nor any number of them in between turns broken output into a program. -/
theorem no_program_of_broken {s : Generator} (h : s.output.Broken) (calls : List Call) (last : Call)
    (program : Program) (t : Generator) :
    scope.run last (scope.after calls s) ≠ .ok (some program) t := by
  intro hrun
  obtain ⟨slots, warnings, hafter⟩ := scope.after_adds calls s
  obtain ⟨more, others, hlast⟩ := scope.onlyAdds_run last (s.add slots warnings)
  rw [hafter] at hrun
  rw [stateAfter_ok hrun] at hlast
  rw [hlast] at hrun
  exact not_broken_of_run hrun (Generator.broken_add (Generator.broken_add h _ _) _ _)

/-- **Broken output is never finished.**  Every slot is left as it is by all later calls,
however they end, so one that is open or no byte stays so.  After a call that failed because of
the output, or for any reason inside a test that it had begun, no later call on the generator
gives a program back. -/
theorem broken_output_never_finished (scope : Scope) (s : Generator) :
    (∀ calls (position : Nat) value, s.output.slots[position]? = some value →
      (scope.after calls s).output.slots[position]? = some value) ∧
    ∀ call fault t, scope.run call s = .error fault t →
      fault.IsOutputFailed ∨ scope.CutShort call.script s →
      ∀ calls last program u, scope.run last (scope.after calls t) ≠ .ok (some program) u := by
  constructor
  · intro calls position value hslot
    obtain ⟨slots, warnings, hafter⟩ := scope.after_adds calls s
    obtain ⟨hlt, -⟩ := List.getElem?_eq_some_iff.mp hslot
    rw [hafter, Generator.slots_add, List.getElem?_append_left hlt]
    exact hslot
  · intro call fault t hrun hcause
    have hbroken : t.output.Broken := by
      rcases hcause with hfault | hcut
      · exact broken_of_outputFailed hrun hfault
      · obtain ⟨_, _, hrun', hbroken⟩ := broken_of_cutShort hcut
        rw [hrun] at hrun'
        cases hrun'
        exact hbroken
    exact no_program_of_broken hbroken

end Scope

/-! ## A text that is missing, inside and outside a test -/

/-- If the lamp is not set, show a text that no table has. -/
def cutCall : Call := .event (.whenSet (.str "lamp") [] [.plain .text []])

theorem broken_output_never_finished_cut :
    nestedScope.CutShort cutCall.script {} ∧
    ∃ t, nestedScope.run cutCall {} = .error (.compile (.stringNotFound (.str " "))) t ∧
      ∀ calls last program u,
        nestedScope.run last (nestedScope.after calls t) ≠ .ok (some program) u := by
  have hcut : nestedScope.CutShort cutCall.script {} :=
    ⟨[], _, [], _, 0, _, _, _, rfl, rfl, rfl, rfl, rfl⟩
  refine ⟨hcut, _, rfl, ?_⟩
  exact (Scope.broken_output_never_finished nestedScope {}).2 cutCall _ _ rfl (.inr hcut)

/-- The same text outside a test leaves the output whole. -/
example : ∃ t program u, nestedScope.run (.event (.plain .text [])) {} =
      .error (.compile (.stringNotFound (.str " "))) t ∧
    nestedScope.run (.generate nestedScript) t = .ok (some program) u :=
  ⟨_, _, _, rfl, rfl⟩

end SceneScript
