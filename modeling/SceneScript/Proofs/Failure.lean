import SceneScript.Proofs.Fallback
import SceneScript.Proofs.Placement

/-!
# How generation fails

A run of generation can fail in a handful of ways: an event cannot be emitted, an address does
not fit in 16 bits, or the scan after an event finds a slot that is no byte.  `Fails` lists
them, once and for all, together with where in the script the failure happens and what has been
written by then; everything else that is said about failing runs is an induction over it.

An event cannot be emitted if a name in it is not in its table, if it asks for a camera speed
beyond all numbers, or if an integer in it is too long to be read or told.  These are the cases
of `Refuses`.

A failing run leaves what stood in the output before it alone, just as one that succeeds does.
-/

namespace SceneScript

/-- The fault says that the output does not fit. -/
def Fault.IsOutputFailed (fault : Fault) : Prop :=
  ∃ command args position value, fault = .compile (.outputFailed command args position value)

namespace Generation

/-! ## Steps that fail -/

theorem orFail_error {α : Type} {r : Except Fault α} {fault : Fault} {s s' : Generator} :
    orFail r s = .error fault s' ↔ r = .error fault ∧ s' = s := by
  cases r with
  | ok a =>
      show EStateM.Result.ok a s = _ ↔ _
      simp
  | error e =>
      show EStateM.Result.error e s = _ ↔ _
      simp [eq_comm]

/-- The scan names the first slot that is neither open nor a byte. -/
theorem check_error {command args : Value} {fault : Fault} {s s' : Generator} :
    check command args s = .error fault s' ↔
      ∃ position value, s.output.stray? = some (position, value) ∧
        fault = .compile (.outputFailed command args (.nat position) value) ∧ s' = s := by
  have hscan : check command args s = .error fault s' ↔
      s.output.check command args = .error fault ∧ s' = s := by
    rw [check, get_bind]
    cases s.output.check command args with
    | ok _ =>
        show EStateM.Result.ok () s = _ ↔ _
        simp
    | error cause =>
        show EStateM.Result.error cause s = _ ↔ _
        simp [eq_comm]
  rw [hscan, Output.check_error]
  simp only [← exists_and_right, and_assoc]

/-- Patching with the address of the next byte fails only if that is beyond 16 bits, and changes
nothing then. -/
theorem patchHere_error {place : Nat} {fault : Fault} {s s' : Generator}
    (hplace : place + 1 < s.output.size) :
    patchHere place s = .error fault s' ↔
      0xffff < s.output.size ∧
        fault = .compile (.outputFailed .null .null (.nat place) (.nat s.output.size)) ∧
        s' = s := by
  unfold patchHere
  by_cases h : s.output.size ≤ 0xffff
  · rw [Output.patch_run h hplace]
    simp only [reduceCtorEq, false_iff, not_and]
    intro hlarge
    omega
  · rw [Output.patch_refused (by omega)]
    simp only [EStateM.Result.error.injEq]
    constructor
    · rintro ⟨rfl, rfl⟩
      exact ⟨by omega, rfl, rfl⟩
    · rintro ⟨-, rfl, rfl⟩
      exact ⟨rfl, rfl⟩

theorem patchSet_error {s t : Generator} {flag : Nat} {clear : List Value} {warnings : List Warning}
    {fault : Fault} (h : patchHere (s.output.size + 3)
      (((s.opened flag).add clear warnings).add (Draft.slots ⟨.jump, []⟩ ++ [.null, .null]) []) =
        .error fault t) :
    0xffff < s.output.size + 8 + clear.length ∧
      fault = .compile (.outputFailed .null .null (.nat (s.output.size + 3))
        (.nat (s.output.size + 8 + clear.length))) ∧
      t = ((s.opened flag).add clear warnings).add
        (Draft.slots ⟨.jump, []⟩ ++ [.null, .null]) [] := by
  have hsize : (((s.opened flag).add clear warnings).add
      (Draft.slots ⟨.jump, []⟩ ++ [.null, .null]) []).output.size =
        s.output.size + 8 + clear.length := by
    simp only [Generator.size_add, Generator.size_opened, Draft.slots, List.length_append,
      List.length_cons, List.length_nil]
    omega
  rw [patchHere_error (by rw [hsize]; omega), hsize] at h
  exact h

theorem patchEnd_error {s t : Generator} {flag : Nat} {clear set : List Value}
    {warnings others : List Warning} {fault : Fault}
    (h : patchHere (((s.opened flag).add clear warnings).output.size + 1)
      ((s.turned flag clear warnings).add set others) = .error fault t) :
    0xffff < s.output.size + 8 + clear.length + set.length ∧
      fault = .compile (.outputFailed .null .null (.nat (s.output.size + 6 + clear.length))
        (.nat (s.output.size + 8 + clear.length + set.length))) ∧
      t = (s.turned flag clear warnings).add set others := by
  have hplace : ((s.opened flag).add clear warnings).output.size + 1 =
      s.output.size + 6 + clear.length := by
    rw [Generator.size_add, Generator.size_opened]
    omega
  have hsize : ((s.turned flag clear warnings).add set others).output.size =
      s.output.size + 8 + clear.length + set.length := by
    rw [Generator.size_add, Generator.size_turned]
  rw [hplace, patchHere_error (by rw [hsize]; omega), hsize] at h
  exact h

/-- A conditional fails at its flag, in one of its bodies or at one of its addresses. -/
theorem conditional_error {scope : Scope} {args : Fields} {whenSet whenClear : Generation Unit}
    {fault : Fault} {s t : Generator}
    (h : conditional scope args whenSet whenClear s = .error fault t) :
    (Symbols.flagIndex scope.symbols.flags (args.get "flag") = .error fault ∧ t = s) ∨
    ∃ flag, Symbols.flagIndex scope.symbols.flags (args.get "flag") = .ok flag ∧
      (whenClear (s.opened flag) = .error fault t ∨
      ∃ s₁, whenClear (s.opened flag) = .ok () s₁ ∧
        (patchHere (s.output.size + 3) (s₁.add (Draft.slots ⟨.jump, []⟩ ++ [.null, .null]) []) =
          .error fault t ∨
        ∃ s₂, patchHere (s.output.size + 3)
            (s₁.add (Draft.slots ⟨.jump, []⟩ ++ [.null, .null]) []) = .ok () s₂ ∧
          (whenSet s₂ = .error fault t ∨
          ∃ s₃, whenSet s₂ = .ok () s₃ ∧ patchHere (s₁.output.size + 1) s₃ = .error fault t))) := by
  rw [conditional_eq] at h
  simp only [bind_error, orFail_error, orFail_ok, extend_run, reserve_run, EStateM.Result.ok.injEq,
    reduceCtorEq, false_or] at h
  rcases h with hflag | ⟨flag, _, ⟨hflag, rfl⟩, _, _, ⟨-, rfl⟩, _, _, ⟨rfl, rfl⟩, h⟩
  · exact .inl hflag
  · refine .inr ⟨flag, hflag, ?_⟩
    rw [Generator.add_add, Generator.size_add] at h
    rcases h with hclear | ⟨_, s₁, hclear, _, _, ⟨-, rfl⟩, _, _, ⟨rfl, rfl⟩, h⟩
    · exact .inl hclear
    · refine .inr ⟨s₁, hclear, ?_⟩
      rw [Generator.add_add, Generator.size_add] at h
      rcases h with hpatch | ⟨_, s₂, hpatch, hset | ⟨_, s₃, hset, hend⟩⟩
      · exact .inl hpatch
      · exact .inr ⟨s₂, hpatch, .inl hset⟩
      · exact .inr ⟨s₂, hpatch, .inr ⟨s₃, hset, hend⟩⟩

end Generation

namespace Scope

variable {scope : Scope}

theorem generateEvent_leaf_error {event : Event} (h : event.branches? = none) {fault : Fault}
    {s t : Generator} (herror : scope.generateEvent event s = .error fault t) :
    scope.emit event.kind event.args = .error fault ∧ t = s := by
  rw [generateEvent_leaf h, bind_error] at herror
  rcases herror with herror | ⟨emission, u, -, hplace⟩
  · exact Generation.orFail_error.mp herror
  · rw [Generation.place_run] at hplace
    cases hplace

theorem generateEvents_cons_error {event : Event} {rest : Script} {fault : Fault} {s t : Generator}
    (h : scope.generateEvents (event :: rest) s = .error fault t) :
    scope.generateEvent event s = .error fault t ∨
    ∃ u, scope.generateEvent event s = .ok () u ∧
      ((∃ position value, u.output.stray? = some (position, value) ∧
        fault = .compile (.outputFailed (.str event.kind.command) (.object event.args)
          (.nat position) value) ∧
        t = u) ∨
      (∀ slot ∈ u.output.slots, Output.acceptable slot) ∧
        scope.generateEvents rest u = .error fault t) := by
  rw [generateEvents_cons] at h
  simp only [bind_error, Generation.check_error, Generation.check_ok] at h
  rcases h with hevent | ⟨_, u, hevent, hscan | ⟨_, _, ⟨hscan, rfl⟩, hrest⟩⟩
  · exact .inl hevent
  · exact .inr ⟨u, hevent, .inl hscan⟩
  · exact .inr ⟨_, hevent, .inr ⟨hscan, hrest⟩⟩

/-! ## Steps that succeed -/

/-- A test that succeeds has laid out both bodies, and both addresses fit. -/
theorem generateEvent_test_ok {event : Event} {whenSet whenClear : Script}
    (htest : event.branches? = some (whenSet, whenClear)) {s t : Generator}
    (h : scope.generateEvent event s = .ok () t) :
    ∃ flag clear set, Symbols.flagIndex scope.symbols.flags (event.args.get "flag") = .ok flag ∧
      Planned scope whenClear clear ∧ Planned scope whenSet set ∧
      scope.generateEvents whenClear (s.opened flag) =
        .ok () ((s.opened flag).add (clear.slots (s.output.size + 5)) clear.warnings) ∧
      scope.generateEvents whenSet
        (s.turned flag (clear.slots (s.output.size + 5)) clear.warnings) =
        .ok () ((s.turned flag (clear.slots (s.output.size + 5)) clear.warnings).add
          (set.slots (s.output.size + 8 + clear.size)) set.warnings) ∧
      s.output.size + 8 + clear.size + set.size ≤ 0xffff ∧
      t = s.closed flag (clear.slots (s.output.size + 5))
        (set.slots (s.output.size + 8 + clear.size)) (clear.warnings ++ set.warnings) := by
  rw [generateEvent_test htest, Generation.conditional_ok] at h
  obtain ⟨flag, s₁, s₂, s₃, hflag, hclear, hpatch, hset, hend⟩ := h
  obtain ⟨clear, hplanClear, rfl, -⟩ := generateEvents_ok hclear
  obtain ⟨-, rfl⟩ := Generation.patchSet_ok.mp hpatch
  obtain ⟨set, hplanSet, rfl, -⟩ := generateEvents_ok hset
  obtain ⟨hfit, rfl⟩ := Generation.patchEnd_ok.mp hend
  simp only [Generator.size_opened, Generator.size_turned, Plan.length_slots] at hclear hset hfit ⊢
  exact ⟨flag, clear, set, hflag, hplanClear, hplanSet, hclear, hset, hfit, rfl⟩

/-- An event that succeeds adds as many slots as its width says. -/
theorem generateEvent_adds {event : Event} {s t : Generator}
    (h : scope.generateEvent event s = .ok () t) :
    ∃ slots warnings, t = s.add slots warnings ∧ slots.length = scope.eventWidth event := by
  cases hbranches : event.branches? with
  | none =>
      obtain ⟨emission, hemit, rfl⟩ := (generateEvent_leaf_ok hbranches).mp h
      refine ⟨_, _, rfl, ?_⟩
      rw [eventWidth_leaf hbranches, leafWidth_ok hemit]
  | some bodies =>
      obtain ⟨whenSet, whenClear⟩ := bodies
      obtain ⟨flag, clear, set, -, hclear, hset, -, -, -, rfl⟩ := generateEvent_test_ok hbranches h
      refine ⟨_, _, rfl, ?_⟩
      rw [eventWidth_test hbranches, ← hclear.size_eq, ← hset.size_eq]
      simp only [List.length_append, Draft.slots, Operand.word, List.length_cons, List.length_nil,
        Plan.length_slots]
      omega

theorem size_generateEvent {event : Event} {s t : Generator}
    (h : scope.generateEvent event s = .ok () t) :
    t.output.size = s.output.size + scope.eventWidth event := by
  obtain ⟨slots, warnings, rfl, hlength⟩ := generateEvent_adds h
  rw [Generator.size_add, hlength]

/-- Where at least one event was laid out, the last scan has passed everything so far. -/
theorem acceptable_of_generateEvents {script : Script} (hne : script ≠ []) {s t : Generator}
    (h : scope.generateEvents script s = .ok () t) :
    ∀ slot ∈ t.output.slots, Output.acceptable slot := by
  induction script generalizing s with
  | nil => exact absurd rfl hne
  | cons event rest ih =>
      obtain ⟨u, -, hscan, hrest⟩ := generateEvents_cons_ok.mp h
      cases rest with
      | nil =>
          rw [generateEvents_nil] at hrest
          cases hrest
          exact hscan
      | cons other others => exact ih (List.cons_ne_nil _ _) hrest

/-! ## Failing runs -/

/-- `scope.Fails script s fault t`: laying out the script from `s` on fails with `fault` and
leaves `t`.  The two addresses of a test are refused in no one's name, and a slot that is no
byte in the name of the event that was scanned. -/
inductive Fails (scope : Scope) : Script → Generator → Fault → Generator → Prop
  | refused {event : Event} {rest : Script} {s : Generator} {fault : Fault} :
      event.branches? = none → scope.emit event.kind event.args = .error fault →
      Fails scope (event :: rest) s fault s
  | flag {event : Event} {rest : Script} {bodies : Script × Script} {s : Generator}
      {fault : Fault} : event.branches? = some bodies →
      Symbols.flagIndex scope.symbols.flags (event.args.get "flag") = .error fault →
      Fails scope (event :: rest) s fault s
  | inClear {event : Event} {rest whenSet whenClear : Script} {flag : Nat} {s t : Generator}
      {fault : Fault} : event.branches? = some (whenSet, whenClear) →
      Symbols.flagIndex scope.symbols.flags (event.args.get "flag") = .ok flag →
      Fails scope whenClear (s.opened flag) fault t → Fails scope (event :: rest) s fault t
  | setAddress {event : Event} {rest whenSet whenClear : Script} {flag : Nat} {s : Generator}
      {clear : Plan} : event.branches? = some (whenSet, whenClear) →
      Symbols.flagIndex scope.symbols.flags (event.args.get "flag") = .ok flag →
      scope.generateEvents whenClear (s.opened flag) =
        .ok () ((s.opened flag).add (clear.slots (s.output.size + 5)) clear.warnings) →
      Planned scope whenClear clear → 0xffff < s.output.size + 8 + clear.size →
      Fails scope (event :: rest) s
        (.compile (.outputFailed .null .null (.nat (s.output.size + 3))
          (.nat (s.output.size + 8 + clear.size))))
        (((s.opened flag).add (clear.slots (s.output.size + 5)) clear.warnings).add
          (Draft.slots ⟨.jump, []⟩ ++ [.null, .null]) [])
  | inSet {event : Event} {rest whenSet whenClear : Script} {flag : Nat} {s t : Generator}
      {clear : Plan} {fault : Fault} :
      event.branches? = some (whenSet, whenClear) →
      Symbols.flagIndex scope.symbols.flags (event.args.get "flag") = .ok flag →
      scope.generateEvents whenClear (s.opened flag) =
        .ok () ((s.opened flag).add (clear.slots (s.output.size + 5)) clear.warnings) →
      Planned scope whenClear clear → s.output.size + 8 + clear.size ≤ 0xffff →
      Fails scope whenSet (s.turned flag (clear.slots (s.output.size + 5)) clear.warnings) fault t →
      Fails scope (event :: rest) s fault t
  | endAddress {event : Event} {rest whenSet whenClear : Script} {flag : Nat} {s : Generator}
      {set clear : Plan} :
      event.branches? = some (whenSet, whenClear) →
      Symbols.flagIndex scope.symbols.flags (event.args.get "flag") = .ok flag →
      Planned scope whenClear clear → Planned scope whenSet set →
      0xffff < s.output.size + 8 + clear.size + set.size →
      Fails scope (event :: rest) s
        (.compile (.outputFailed .null .null (.nat (s.output.size + 6 + clear.size))
          (.nat (s.output.size + 8 + clear.size + set.size))))
        ((s.turned flag (clear.slots (s.output.size + 5)) clear.warnings).add
          (set.slots (s.output.size + 8 + clear.size)) set.warnings)
  | scan {event : Event} {rest : Script} {s t : Generator} {position : Nat} {value : Value} :
      scope.generateEvent event s = .ok () t → t.output.stray? = some (position, value) →
      Fails scope (event :: rest) s
        (.compile (.outputFailed (.str event.kind.command) (.object event.args)
          (.nat position) value)) t
  | later {event : Event} {rest : Script} {s t u : Generator} {fault : Fault} :
      scope.generateEvent event s = .ok () u → (∀ slot ∈ u.output.slots, Output.acceptable slot) →
      Fails scope rest u fault t → Fails scope (event :: rest) s fault t

/-- Every failing run is one of those. -/
theorem fails_of_error {script : Script} {fault : Fault} {s t : Generator}
    (h : scope.generateEvents script s = .error fault t) : scope.Fails script s fault t := by
  induction script using Script.induction generalizing s t with
  | nil =>
      rw [generateEvents_nil] at h
      cases h
  | leaf event rest hleaf ih =>
      rcases generateEvents_cons_error h with hevent | ⟨u, hevent, hscan | ⟨hscan, hrest⟩⟩
      · obtain ⟨hemit, rfl⟩ := generateEvent_leaf_error hleaf hevent
        exact .refused hleaf hemit
      · obtain ⟨position, value, hstray, rfl, rfl⟩ := hscan
        exact .scan hevent hstray
      · exact .later hevent hscan (ih hrest)
  | test event rest whenSet whenClear htest ihSet ihClear ih =>
      rcases generateEvents_cons_error h with hevent | ⟨u, hevent, hscan | ⟨hscan, hrest⟩⟩
      · rw [generateEvent_test htest] at hevent
        rcases Generation.conditional_error hevent with
          ⟨hflag, rfl⟩ | ⟨flag, hflag, hclear | ⟨s₁, hclear, hafter⟩⟩
        · exact .flag htest hflag
        · exact .inClear htest hflag (ihClear hclear)
        · obtain ⟨clear, hplanClear, rfl, -⟩ := generateEvents_ok hclear
          rw [Generator.size_opened] at hclear hafter
          rcases hafter with hpatch | ⟨s₂, hpatch, hset | ⟨s₃, hset, hend⟩⟩
          · obtain ⟨hlarge, rfl, rfl⟩ := Generation.patchSet_error hpatch
            rw [Plan.length_slots] at hlarge ⊢
            exact .setAddress htest hflag hclear hplanClear hlarge
          · obtain ⟨hfit, rfl⟩ := Generation.patchSet_ok.mp hpatch
            rw [Plan.length_slots] at hfit
            exact .inSet htest hflag hclear hplanClear hfit (ihSet hset)
          · obtain ⟨hfit, rfl⟩ := Generation.patchSet_ok.mp hpatch
            obtain ⟨set, hplanSet, rfl, -⟩ := generateEvents_ok hset
            obtain ⟨hlarge, rfl, rfl⟩ := Generation.patchEnd_error hend
            simp only [Generator.size_turned, Plan.length_slots] at hlarge ⊢
            exact .endAddress htest hflag hplanClear hplanSet hlarge
      · obtain ⟨position, value, hstray, rfl, rfl⟩ := hscan
        exact .scan hevent hstray
      · exact .later hevent hscan (ih hrest)

/-- A failing run only adds to the output and the warnings. -/
theorem Fails.adds {script : Script} {fault : Fault} {s t : Generator}
    (h : scope.Fails script s fault t) : ∃ slots warnings, t = s.add slots warnings := by
  induction h with
  | refused => exact ⟨[], [], (Generator.add_nil _).symm⟩
  | flag => exact ⟨[], [], (Generator.add_nil _).symm⟩
  | inClear _ _ _ ih =>
      obtain ⟨slots, warnings, rfl⟩ := ih
      exact ⟨_, _, Generator.add_add _ _ _ _ _⟩
  | setAddress => exact ⟨_, _, by rw [Generator.opened, Generator.add_add, Generator.add_add]⟩
  | inSet _ _ _ _ _ _ ih =>
      obtain ⟨slots, warnings, rfl⟩ := ih
      exact ⟨_, _, Generator.add_add _ _ _ _ _⟩
  | endAddress => exact ⟨_, _, Generator.add_add _ _ _ _ _⟩
  | scan hevent _ =>
      obtain ⟨slots, warnings, rfl, -⟩ := generateEvent_adds hevent
      exact ⟨slots, warnings, rfl⟩
  | later hevent _ _ ih =>
      obtain ⟨slots, warnings, rfl, -⟩ := generateEvent_adds hevent
      obtain ⟨more, others, rfl⟩ := ih
      exact ⟨_, _, Generator.add_add _ _ _ _ _⟩

/-! ## Causes -/

/-- `scope.Missing event e`: the event asks for a text or flag that is not in its table, and `e`
says so. -/
inductive Missing (scope : Scope) (event : Event) : CompileError → Prop
  | text : event.kind = .text →
      Value.indexIn? scope.symbols.strings (Symbols.storedText (event.args.get "text")) = none →
      Missing scope event (.stringNotFound (Symbols.storedText (event.args.get "text")))
  | flag : event.kind ∈ [.setTrue, .setFalse, .ifTrue, .ifFalse] →
      Value.indexIn? scope.symbols.flags (event.args.get "flag") = none →
      Missing scope event (.flagNotFound (event.args.get "flag"))

/-- The value is an integer so large that there is no power of two for it. -/
def TooFast (speed : Value) : Prop := ∃ n, speed.integer? = some n ∧ (Operand.shiftLimit : Int) < n

/-- `scope.Refuses event fault`: the event cannot be emitted, and `fault` says why.  A name is
missing; the speed of the camera is beyond all numbers; the encounter is too long to be read;
what the event falls back from is too long to be told. -/
inductive Refuses (scope : Scope) (event : Event) : Fault → Prop
  | missing {e : CompileError} : scope.Missing event e → Refuses scope event (.compile e)
  | speed : event.kind ∈ [.cameraMoveTo, .cameraLock] → TooFast (event.args.arg "speed" (.int 0)) →
      Refuses scope event .overflow
  | encounter {e : TooManyDigits} : event.kind = .startBattle →
      ¬ Operand.Legible (event.args.get "encounter") →
      Refuses scope event (.malformed (.tooManyDigits e))
  | untold {cause : Fallback} : scope.fallback? event = some cause → ¬ cause.Short →
      Refuses scope event (.malformed (.tooManyDigits .toWrite))

theorem flagIndex_error {flags : List Value} {flag : Value} {fault : Fault}
    (h : Symbols.flagIndex flags flag = .error fault) :
    Value.indexIn? flags flag = none ∧ fault = .compile (.flagNotFound flag) := by
  unfold Symbols.flagIndex at h
  split at h
  · cases h
  · cases h
    exact ⟨‹_›, rfl⟩

theorem stringIndex_error {strings : List Value} {text : Value} {fault : Fault}
    (h : Symbols.stringIndex strings text = .error fault) :
    Value.indexIn? strings (Symbols.storedText text) = none ∧
      fault = .compile (.stringNotFound (Symbols.storedText text)) := by
  unfold Symbols.stringIndex at h
  split at h
  · cases h
  · cases h
    exact ⟨‹_›, rfl⟩

theorem cameraSpeed_error {args : Fields} {fault : Fault} (h : cameraSpeed args = .error fault) :
    fault = .overflow ∧ TooFast (args.arg "speed" (.int 0)) := by
  unfold cameraSpeed Operand.cameraSpeed at h
  split at h
  · rename_i n hn
    split at h
    · cases h
    · split at h
      · cases h
      · rename_i hlarge
        cases h
        exact ⟨rfl, n, hn, Int.not_le.mp hlarge⟩
  · cases h

/-- A recipe that only puts a result together fails just as that does. -/
theorem recipe_error {α : Type} {x : Except Fault α} {f : α → Recipe} {fault : Fault}
    (h : (x >>= fun a => pure (f a)) = .error fault) : x = .error fault := by
  rcases result_bind_error.mp h with hx | ⟨_, -, hpure⟩
  · exact hx
  · cases hpure

theorem refuses_of_recipe {event : Event} {fault : Fault}
    (h : scope.recipe event.kind event.args = .error fault) : scope.Refuses event fault := by
  cases hkind : event.kind
  all_goals rw [hkind] at h
  case text =>
    obtain ⟨hnone, rfl⟩ := stringIndex_error (recipe_error h)
    exact .missing (.text hkind hnone)
  case setTrue | setFalse =>
    obtain ⟨hnone, rfl⟩ := flagIndex_error (recipe_error h)
    exact .missing (.flag (by rw [hkind]; decide) hnone)
  case cameraMoveTo | cameraLock =>
    obtain ⟨rfl, hfast⟩ := cameraSpeed_error (recipe_error h)
    exact .speed (by rw [hkind]; decide) hfast
  case startBattle =>
    obtain ⟨hlong, e, rfl⟩ := Operand.leadingInteger_error (recipe_error h)
    exact .encounter hkind hlong
  all_goals cases h

theorem refuses_of_emit {event : Event} {fault : Fault}
    (h : scope.emit event.kind event.args = .error fault) : scope.Refuses event fault := by
  rcases emit_error.mp h with hrecipe | ⟨r, hr, rfl, cause, hcause, hlong⟩
  · exact refuses_of_recipe hrecipe
  · rw [fallbacks_recipe hr, Option.mem_toList] at hcause
    exact .untold hcause hlong

theorem refuses_of_flagIndex {event : Event} {bodies : Script × Script} {fault : Fault}
    (htest : event.branches? = some bodies)
    (h : Symbols.flagIndex scope.symbols.flags (event.args.get "flag") = .error fault) :
    scope.Refuses event fault := by
  obtain ⟨hnone, rfl⟩ := flagIndex_error h
  refine .missing (.flag ?_ hnone)
  rcases Event.kind_of_test htest with hcase | hcase
  all_goals
    rw [hcase]
    decide

/-- What cannot be emitted is not refused for the output. -/
theorem Refuses.not_outputFailed {event : Event} {fault : Fault} (h : scope.Refuses event fault) :
    ¬ fault.IsOutputFailed := by
  rintro ⟨_, _, _, _, rfl⟩
  cases h with
  | missing hmissing => cases hmissing

/-- A run fails because an event of the script cannot be emitted, or because of the output. -/
theorem Fails.cause {script : Script} {fault : Fault} {s t : Generator}
    (h : scope.Fails script s fault t) :
    (∃ event start, scope.Stands s.output.size script event start ∧ scope.Refuses event fault) ∨
      fault.IsOutputFailed := by
  induction h with
  | refused _ hemit => exact .inl ⟨_, _, .here, refuses_of_emit hemit⟩
  | flag htest hflag => exact .inl ⟨_, _, .here, refuses_of_flagIndex htest hflag⟩
  | inClear htest _ _ ih =>
      rw [Generator.size_opened] at ih
      rcases ih with ⟨event, start, hstands, hrefuses⟩ | houtput
      · exact .inl ⟨event, start, .inClear htest hstands, hrefuses⟩
      · exact .inr houtput
  | setAddress => exact .inr ⟨_, _, _, _, rfl⟩
  | inSet htest _ _ hclear _ _ ih =>
      rw [Generator.size_turned, Plan.length_slots, hclear.size_eq] at ih
      rcases ih with ⟨event, start, hstands, hrefuses⟩ | houtput
      · exact .inl ⟨event, start, .inSet htest hstands, hrefuses⟩
      · exact .inr houtput
  | endAddress => exact .inr ⟨_, _, _, _, rfl⟩
  | scan => exact .inr ⟨_, _, _, _, rfl⟩
  | later hevent _ _ ih =>
      rw [size_generateEvent hevent] at ih
      rcases ih with ⟨event, start, hstands, hrefuses⟩ | houtput
      · exact .inl ⟨event, start, .later hstands, hrefuses⟩
      · exact .inr houtput

/-! ## Whole runs

Once all events are laid out nothing can go wrong any more: the plan of the script has no open
slot, and the last scan has seen the rest. -/

theorem bytes_of_generateEvents {script : Script} {t : Generator}
    (h : scope.generateEvents script {} = .ok () t) :
    ∀ slot ∈ t.output.slots, slot.byte?.isSome := by
  cases script with
  | nil =>
      rw [generateEvents_nil] at h
      cases h
      exact fun _ hslot => absurd hslot List.not_mem_nil
  | cons event rest =>
      obtain ⟨plan, hplan, hadded, -⟩ := generateEvents_ok h
      have hscan := acceptable_of_generateEvents (List.cons_ne_nil _ _) h
      intro slot hslot
      have hgiven : slot.isNull = false := by
        rw [hadded, Generator.slots_add] at hslot
        exact hplan.slots_given _ slot hslot
      have hslot := hscan slot hslot
      rw [Output.acceptable, hgiven, Bool.false_or] at hslot
      exact hslot

/-- The end after a script adds no way to fail. -/
theorem generateBlock_error {script : Script} {isBody : Bool} {fault : Fault} {s t : Generator} :
    scope.generateBlock script isBody s = .error fault t ↔
      scope.generateEvents script s = .error fault t := by
  rw [generateBlock_eq, bind_error]
  refine or_iff_left ?_
  rintro ⟨_, u, -, hend⟩
  cases isBody with
  | true => cases hend
  | false =>
      rw [Bool.not_false, if_pos rfl, Generation.extend_run] at hend
      cases hend

/-- Freezing what was laid out from empty output never fails. -/
theorem freeze_of_generateBlock {script : Script} {t : Generator}
    (h : scope.generateBlock script false {} = .ok () t) :
    ∃ program, t.output.freeze = .ok program ∧ scope.generate script {} = .ok program t := by
  rw [generateBlock_eq] at h
  obtain ⟨_, u, hevents, hend⟩ := bind_ok.mp h
  rw [Bool.not_false, if_pos rfl, Generation.extend_run] at hend
  cases hend
  have hbytes : ∀ slot ∈ (u.add (Draft.slots ⟨.halt, []⟩) []).output.slots, slot.byte?.isSome := by
    rw [Generator.slots_add, List.forall_mem_append]
    exact ⟨bytes_of_generateEvents hevents,
      Draft.fits_slots.mpr fun _ hv => absurd hv List.not_mem_nil⟩
  have hfrozen := Output.freeze_ok.mpr ⟨hbytes, rfl⟩
  exact ⟨_, hfrozen, bind_ok.mpr ⟨(), _, h, Generation.freeze_ok.mpr ⟨hfrozen, rfl⟩⟩⟩

/-- A whole run fails only while events are laid out. -/
theorem generateBlock_of_generate_error {script : Script} {fault : Fault} {t : Generator}
    (h : scope.generate script {} = .error fault t) :
    scope.generateBlock script false {} = .error fault t := by
  rw [generate_eq] at h
  rcases bind_error.mp h with hblock | ⟨_, u, hblock, hfreeze⟩
  · exact hblock
  · obtain ⟨program, hfrozen, -⟩ := freeze_of_generateBlock hblock
    rw [Generation.freeze_ok.mpr ⟨hfrozen, rfl⟩] at hfreeze
    cases hfreeze

theorem fails_of_generate {script : Script} {fault : Fault} {t : Generator}
    (h : scope.generate script {} = .error fault t) : scope.Fails script {} fault t :=
  fails_of_error (generateBlock_error.mp (generateBlock_of_generate_error h))

end Scope

end SceneScript
