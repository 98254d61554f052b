import SceneScript.Proofs.Failure

/-!
# Whom the range scan blames

When the scan after an event finds a slot that is no byte, it reports the slot in the name of
that event.  For an event that is no test this is as it should be: its own scan is the first one
that sees its slots.

A test is different.  Its header is written before its bodies are, but its own scan comes after
them, and each event of a body is followed by a scan of everything.  So if the index of its flag
does not fit in 16 bits, the first to be scanned is blamed: the first event of the first body
that has one, or, if that is a test as well, the first event in there.  The event that is blamed
for the slots of an event is its `Event.firstScanned`, and it is the event itself but for tests
with something in their bodies.
-/

namespace SceneScript

/-! ## The first scan -/

mutual
/-- The event whose scan comes first once an event has been begun. -/
def Event.firstScanned : Event → Event
  | .conditional .ifTrue args whenTrue whenFalse =>
    ((firstScannedIn whenFalse).or (firstScannedIn whenTrue)).getD
      (.conditional .ifTrue args whenTrue whenFalse)
  | .conditional .ifFalse args whenTrue whenFalse =>
    ((firstScannedIn whenTrue).or (firstScannedIn whenFalse)).getD
      (.conditional .ifFalse args whenTrue whenFalse)
  | .conditional kind args whenTrue whenFalse => .conditional kind args whenTrue whenFalse
  | .plain kind args => .plain kind args

/-- The event whose scan comes first in a script. -/
def Event.firstScannedIn : List Event → Option Event
  | [] => none
  | event :: _ => some (firstScanned event)
end

namespace Event

theorem firstScanned_leaf {event : Event} (h : event.branches? = none) :
    event.firstScanned = event := by
  cases event with
  | plain kind args => rw [firstScanned]
  | conditional kind args whenTrue whenFalse =>
      cases kind
      case ifTrue | ifFalse => cases h
      all_goals rfl

theorem firstScanned_test {event : Event} {whenSet whenClear : Script}
    (h : event.branches? = some (whenSet, whenClear)) :
    event.firstScanned = ((firstScannedIn whenClear).or (firstScannedIn whenSet)).getD event := by
  unfold branches? at h
  split at h
  all_goals cases h
  all_goals rfl

theorem firstScanned_clear {event first : Event} {whenSet rest : Script}
    (h : event.branches? = some (whenSet, first :: rest)) :
    event.firstScanned = first.firstScanned := by
  rw [firstScanned_test h]
  rfl

theorem firstScanned_set {event first : Event} {rest : Script}
    (h : event.branches? = some (first :: rest, [])) : event.firstScanned = first.firstScanned := by
  rw [firstScanned_test h]
  rfl

theorem firstScanned_bare {event : Event} (h : event.branches? = some ([], [])) :
    event.firstScanned = event := by
  rw [firstScanned_test h]
  rfl

/-- The command and arguments are those of the event. -/
def IsNamed (event : Event) (command args : Value) : Prop :=
  command = .str event.kind.command ∧ args = .object event.args

end Event

/-! ## Who emits a slot -/

/-- `scope.Emits event start position value`: an event whose code starts at `start` puts the
value at the position by itself.  For a test that is its header and its jump, and not the code
of its bodies; the addresses in them are filled in later. -/
inductive Scope.Emits (scope : Scope) (event : Event) (start : Nat) : Nat → Value → Prop
  | leaf {emission : Emission} {k : Nat} {value : Value} :
      event.branches? = none → scope.emit event.kind event.args = .ok emission →
      emission.slots[k]? = some value → Emits scope event start (start + k) value
  | header {bodies : Script × Script} {flag k : Nat} {value : Value} :
      event.branches? = some bodies →
      Symbols.flagIndex scope.symbols.flags (event.args.get "flag") = .ok flag →
      (Draft.slots ⟨.ifTrue, Operand.word flag⟩)[k]? = some value →
      Emits scope event start (start + k) value
  | jump {whenSet whenClear : Script} {k : Nat} {value : Value} :
      event.branches? = some (whenSet, whenClear) → (Draft.slots ⟨.jump, []⟩)[k]? = some value →
      Emits scope event start (start + 5 + scope.width whenClear + k) value

theorem Output.refuted {slots : List Value} (h : ∀ slot ∈ slots, acceptable slot) {p : Nat}
    {value : Value} (hslot : slots[p]? = some value) (hbad : acceptable value = false) : False := by
  have hgood := h value (List.mem_of_getElem? hslot)
  rw [hbad] at hgood
  cases hgood

/-- A slot of a state is one from before, or one that was added. -/
theorem Generator.getElem?_add {s : Generator} {slots : List Value} {warnings : List Warning}
    {p : Nat} {value : Value} (h : (s.add slots warnings).output.slots[p]? = some value) :
    (p < s.output.size ∧ s.output.slots[p]? = some value) ∨
      ∃ k, p = s.output.size + k ∧ slots[k]? = some value := by
  rw [Generator.slots_add] at h
  by_cases hp : p < s.output.slots.length
  · rw [List.getElem?_append_left hp] at h
    exact .inl ⟨hp, h⟩
  · rw [List.getElem?_append_right (by omega)] at h
    exact .inr ⟨p - s.output.slots.length, by rw [Output.size]; omega, h⟩

theorem Generator.getElem?_of_add {s : Generator} {slots : List Value} {warnings : List Warning}
    {p : Nat} {value : Value} (h : (s.add slots warnings).output.slots[p]? = some value)
    (hp : p < s.output.size) : s.output.slots[p]? = some value := by
  rcases Generator.getElem?_add h with ⟨-, hslot⟩ | ⟨k, rfl, -⟩
  · exact hslot
  · omega

/-- Where nothing but the header of a test may hold a slot that does not pass the scan, such a
slot is in the header or from before. -/
theorem Generator.getElem?_header {s : Generator} {flag : Nat} {back : List Value}
    {warnings : List Warning} {p : Nat} {value : Value}
    (h : (s.add (Draft.slots ⟨.ifTrue, Operand.word flag⟩ ++ back) warnings).output.slots[p]? =
      some value)
    (hback : ∀ slot ∈ back, Output.acceptable slot) (hbad : Output.acceptable value = false) :
    p < s.output.size ∨
      ∃ k, p = s.output.size + k ∧ (Draft.slots ⟨.ifTrue, Operand.word flag⟩)[k]? = some value := by
  rcases Generator.getElem?_add h with ⟨hp, -⟩ | ⟨k, rfl, hk⟩
  · exact .inl hp
  · refine .inr ⟨k, rfl, ?_⟩
    by_cases hlt : k < (Draft.slots ⟨.ifTrue, Operand.word flag⟩).length
    · rwa [List.getElem?_append_left hlt] at hk
    · rw [List.getElem?_append_right (by omega)] at hk
      exact (Output.refuted hback hk hbad).elim

namespace Scope

variable {scope : Scope}

/-! ## Every slot has one emitter -/

theorem Emits.bounds {event : Event} {start p : Nat} {value : Value}
    (h : scope.Emits event start p value) : start ≤ p ∧ p < start + scope.eventWidth event := by
  cases h with
  | @leaf emission k _ hleaf hemit hslot =>
      have hk := (List.getElem?_eq_some_iff.mp hslot).1
      rw [eventWidth_leaf hleaf, leafWidth_ok hemit]
      omega
  | @header bodies flag k _ htest hflag hslot =>
      have hk : k < 3 := (List.getElem?_eq_some_iff.mp hslot).1
      rw [eventWidth_test htest]
      omega
  | @jump whenSet whenClear k _ htest hslot =>
      have hk : k < 1 := (List.getElem?_eq_some_iff.mp hslot).1
      rw [eventWidth_test htest]
      omega

/-- What a test emits by itself is not in the stretches of its bodies. -/
theorem Emits.outside_bodies {event : Event} {whenSet whenClear : Script} {start p : Nat}
    {value : Value} (h : scope.Emits event start p value)
    (htest : event.branches? = some (whenSet, whenClear)) :
    p < start + 5 ∨
      start + 5 + scope.width whenClear ≤ p ∧ p < start + 8 + scope.width whenClear := by
  cases h with
  | leaf hleaf =>
      rw [htest] at hleaf
      cases hleaf
  | @header bodies flag k _ _ _ hslot =>
      have hk : k < 3 := (List.getElem?_eq_some_iff.mp hslot).1
      omega
  | @jump _ _ k _ htest' hslot =>
      have hk : k < 1 := (List.getElem?_eq_some_iff.mp hslot).1
      rw [htest] at htest'
      cases htest'
      omega

theorem Stands.bounds {base start : Nat} {script : Script} {event : Event}
    (h : scope.Stands base script event start) :
    base ≤ start ∧ start + scope.eventWidth event ≤ base + scope.width script := by
  induction h with
  | here =>
      rw [width]
      omega
  | inClear htest _ ih =>
      rw [width, eventWidth_test htest]
      omega
  | inSet htest _ ih =>
      rw [width, eventWidth_test htest]
      omega
  | later _ ih =>
      rw [width]
      omega

theorem Stands.emits_bounds {base start p : Nat} {script : Script} {event : Event} {value : Value}
    (h : scope.Stands base script event start) (hemits : scope.Emits event start p value) :
    base ≤ p ∧ p < base + scope.width script := by
  have := h.bounds
  have := hemits.bounds
  omega

/-- No two events emit the same slot. -/
theorem Stands.emitter_unique {base start other p : Nat} {script : Script} {event rival : Event}
    {value claimed : Value} (h : scope.Stands base script event start)
    (hemits : scope.Emits event start p value)
    (hrival : scope.Stands base script rival other) (hclaims : scope.Emits rival other p claimed) :
    rival = event ∧ other = start := by
  -- The header and jump of a test, its two bodies and what comes after it are apart.
  induction h with
  | here =>
      cases hrival with
      | here => exact ⟨rfl, rfl⟩
      | inClear htest hin =>
          have := hemits.outside_bodies htest
          have := hin.emits_bounds hclaims
          omega
      | inSet htest hin =>
          have := hemits.outside_bodies htest
          have := hin.emits_bounds hclaims
          omega
      | later hin =>
          have := hemits.bounds
          have := hin.emits_bounds hclaims
          omega
  | inClear htest hin ih =>
      have hp := hin.emits_bounds hemits
      have hwidth := @eventWidth_test scope _ _ _ htest
      cases hrival with
      | here =>
          have := hclaims.outside_bodies htest
          omega
      | inClear htest' hrival =>
          rw [htest] at htest'
          cases htest'
          exact ih hemits hrival
      | inSet htest' hrival =>
          rw [htest] at htest'
          cases htest'
          have := hrival.emits_bounds hclaims
          omega
      | later hrival =>
          have := hrival.emits_bounds hclaims
          omega
  | inSet htest hin ih =>
      have hp := hin.emits_bounds hemits
      have hwidth := @eventWidth_test scope _ _ _ htest
      cases hrival with
      | here =>
          have := hclaims.outside_bodies htest
          omega
      | inClear htest' hrival =>
          rw [htest] at htest'
          cases htest'
          have := hrival.emits_bounds hclaims
          omega
      | inSet htest' hrival =>
          rw [htest] at htest'
          cases htest'
          exact ih hemits hrival
      | later hrival =>
          have := hrival.emits_bounds hclaims
          omega
  | later hin ih =>
      have hp := hin.emits_bounds hemits
      cases hrival with
      | here =>
          have := hclaims.bounds
          omega
      | inClear htest hrival =>
          have hwidth := @eventWidth_test scope _ _ _ htest
          have := hrival.emits_bounds hclaims
          omega
      | inSet htest hrival =>
          have hwidth := @eventWidth_test scope _ _ _ htest
          have := hrival.emits_bounds hclaims
          omega
      | later hrival => exact ih hemits hrival

/-! ## What has been scanned -/

/-- Once the first body of a test has something in it, everything up to the second has passed a
scan. -/
theorem acceptable_turned {flag : Nat} {whenClear : Script} (hne : whenClear ≠ []) {clear : Plan}
    {s : Generator}
    (h : scope.generateEvents whenClear (s.opened flag) =
      .ok () ((s.opened flag).add (clear.slots (s.output.size + 5)) clear.warnings))
    (hfit : s.output.size + 8 + clear.size ≤ 0xffff) :
    ∀ slot ∈ (s.turned flag (clear.slots (s.output.size + 5)) clear.warnings).output.slots,
      Output.acceptable slot := by
  have hscan := acceptable_of_generateEvents hne h
  rw [Generator.opened, Generator.slots_add, Generator.slots_add] at hscan
  rw [Generator.turned, Generator.slots_add]
  simp only [List.forall_mem_append, Plan.length_slots] at hscan ⊢
  obtain ⟨⟨hs, hheader, hopen⟩, hclear⟩ := hscan
  exact ⟨hs, ⟨⟨⟨hheader, Operand.acceptable_word hfit⟩, hclear⟩, Draft.acceptable_jump⟩, hopen⟩

/-- After a test with something in its bodies, everything has passed a scan. -/
theorem acceptable_of_bodies {event : Event} {whenSet whenClear : Script}
    (htest : event.branches? = some (whenSet, whenClear)) (hne : (whenSet, whenClear) ≠ ([], []))
    {s t : Generator} (h : scope.generateEvent event s = .ok () t) :
    ∀ slot ∈ t.output.slots, Output.acceptable slot := by
  obtain ⟨flag, clear, set, -, -, hset, hclearRun, hsetRun, hfit, rfl⟩ :=
    generateEvent_test_ok htest h
  have hscan : ∀ slot ∈ ((s.turned flag (clear.slots (s.output.size + 5)) clear.warnings).add
      (set.slots (s.output.size + 8 + clear.size)) set.warnings).output.slots,
      Output.acceptable slot := by
    cases whenSet with
    | cons first rest => exact acceptable_of_generateEvents (List.cons_ne_nil _ _) hsetRun
    | nil =>
        have hclear : whenClear ≠ [] := fun hempty => hne (by rw [hempty])
        cases hset
        rw [Generator.slots_add, Plan.slots_done, List.append_nil]
        exact acceptable_turned hclear hclearRun (by omega)
  -- The one thing that changes after that scan is the address in the jump.
  rw [Generator.turned, Generator.slots_add, Generator.slots_add] at hscan
  rw [Generator.closed, Generator.slots_add]
  simp only [List.forall_mem_append, Plan.length_slots] at hscan ⊢
  obtain ⟨⟨hs, hfront, -⟩, hset⟩ := hscan
  exact ⟨hs, ⟨hfront, Operand.acceptable_word hfit⟩, hset⟩

/-! ## Whom a failing run blames -/

/-- A slot is traced to a command and arguments: it is from before the script, and they are
those of the script's first scan, or an event of the script emits it, and they are those of that
event's first scan. -/
def Traced (scope : Scope) (base : Nat) (script : Script) (p : Nat) (value command args : Value) :
    Prop :=
  (p < base ∧ ∃ first rest, script = first :: rest ∧ first.firstScanned.IsNamed command args) ∨
  ∃ owner start, scope.Stands base script owner start ∧ scope.Emits owner start p value ∧
    owner.firstScanned.IsNamed command args

theorem traced_header {event : Event} {rest : Script} {bodies : Script × Script} {flag : Nat}
    (htest : event.branches? = some bodies)
    (hflag : Symbols.flagIndex scope.symbols.flags (event.args.get "flag") = .ok flag)
    {s : Generator} {back : List Value} {warnings : List Warning} {p : Nat}
    {value command args : Value}
    (hslot : (s.add (Draft.slots ⟨.ifTrue, Operand.word flag⟩ ++ back) warnings).output.slots[p]? =
      some value)
    (hback : ∀ slot ∈ back, Output.acceptable slot) (hbad : Output.acceptable value = false)
    (hnamed : event.firstScanned.IsNamed command args) :
    scope.Traced s.output.size (event :: rest) p value command args := by
  rcases Generator.getElem?_header hslot hback hbad with hbefore | ⟨k, rfl, hk⟩
  · exact .inl ⟨hbefore, event, rest, rfl, hnamed⟩
  · exact .inr ⟨event, s.output.size, .here, .header htest hflag hk, hnamed⟩

/-- The scan after an event finds what the event itself emits, or something from before. -/
theorem traced_scan {event : Event} {rest : Script} {s t : Generator} {p : Nat} {value : Value}
    (hevent : scope.generateEvent event s = .ok () t) (hslot : t.output.slots[p]? = some value)
    (hbad : Output.acceptable value = false) :
    scope.Traced s.output.size (event :: rest) p value (.str event.kind.command)
      (.object event.args) := by
  cases hbranches : event.branches? with
  | none =>
      have hnamed : event.firstScanned.IsNamed (.str event.kind.command) (.object event.args) := by
        rw [Event.firstScanned_leaf hbranches]
        exact ⟨rfl, rfl⟩
      obtain ⟨emission, hemit, rfl⟩ := (generateEvent_leaf_ok hbranches).mp hevent
      rcases Generator.getElem?_add hslot with ⟨hbefore, -⟩ | ⟨k, rfl, hk⟩
      · exact .inl ⟨hbefore, event, rest, rfl, hnamed⟩
      · exact .inr ⟨event, s.output.size, .here, .leaf hbranches hemit hk, hnamed⟩
  | some bodies =>
      obtain ⟨whenSet, whenClear⟩ := bodies
      by_cases hbare : (whenSet, whenClear) = ([], [])
      · cases hbare
        have hnamed : event.firstScanned.IsNamed (.str event.kind.command)
            (.object event.args) := by
          rw [Event.firstScanned_bare hbranches]
          exact ⟨rfl, rfl⟩
        obtain ⟨flag, clear, set, hflag, hclear, hset, -, -, hfit, rfl⟩ :=
          generateEvent_test_ok hbranches hevent
        cases hclear
        cases hset
        rw [Generator.closed, List.append_assoc, List.append_assoc, List.append_assoc,
          List.append_assoc] at hslot
        refine traced_header hbranches hflag hslot ?_ hbad hnamed
        simp only [List.forall_mem_append]
        exact ⟨Operand.acceptable_word hfit, fun _ hslot => absurd hslot List.not_mem_nil,
          Draft.acceptable_jump, Operand.acceptable_word hfit,
          fun _ hslot => absurd hslot List.not_mem_nil⟩
      · -- The last scan in a body has seen all of it.
        exact (Output.refuted (acceptable_of_bodies hbranches hbare hevent) hslot hbad).elim

theorem Fails.blame {script : Script} {fault : Fault} {s t : Generator}
    (h : scope.Fails script s fault t) {command : String} {args position value : Value}
    (hfault : fault = .compile (.outputFailed (.str command) args position value)) :
    ∃ p, position = .nat p ∧ t.output.slots[p]? = some value ∧ Output.acceptable value = false ∧
      scope.Traced s.output.size script p value (.str command) args := by
  induction h with
  | refused _ hemit => exact absurd ⟨_, _, _, _, hfault⟩ (refuses_of_emit hemit).not_outputFailed
  | flag htest hflag =>
      exact absurd ⟨_, _, _, _, hfault⟩ (refuses_of_flagIndex htest hflag).not_outputFailed
  | setAddress => cases hfault
  | endAddress => cases hfault
  | inClear htest hflag hfails ih =>
      obtain ⟨p, rfl, hslot, hbad, htraced⟩ := ih hfault
      refine ⟨p, rfl, hslot, hbad, ?_⟩
      rcases htraced with ⟨hp, first, others, rfl, hnamed⟩ | ⟨owner, start, hstands, howner⟩
      · rw [← Event.firstScanned_clear htest] at hnamed
        obtain ⟨slots, warnings, rfl⟩ := hfails.adds
        exact traced_header htest hflag (Generator.getElem?_of_add hslot hp)
          Output.acceptable_open hbad hnamed
      · rw [Generator.size_opened] at hstands
        exact .inr ⟨owner, start, .inClear htest hstands, howner⟩
  | @inSet event rest whenSet whenClear flag s t clear fault htest hflag hclear hplan
    hfit hfails ih =>
      obtain ⟨p, rfl, hslot, hbad, htraced⟩ := ih hfault
      refine ⟨p, rfl, hslot, hbad, ?_⟩
      rcases htraced with ⟨hp, first, others, rfl, hnamed⟩ | ⟨owner, start, hstands, howner⟩
      · obtain ⟨slots, warnings, rfl⟩ := hfails.adds
        have hturned := Generator.getElem?_of_add hslot hp
        cases whenClear with
        | cons other more =>
            exact (Output.refuted (acceptable_turned (List.cons_ne_nil _ _) hclear hfit)
              hturned hbad).elim
        | nil =>
            rw [← Event.firstScanned_set htest] at hnamed
            cases hplan
            rw [Generator.turned, List.append_assoc, List.append_assoc,
              List.append_assoc] at hturned
            refine traced_header htest hflag hturned ?_ hbad hnamed
            simp only [List.forall_mem_append]
            exact ⟨Operand.acceptable_word hfit, fun _ hslot => absurd hslot List.not_mem_nil,
              Draft.acceptable_jump, Output.acceptable_open⟩
      · rw [Generator.size_turned, Plan.length_slots, hplan.size_eq] at hstands
        exact .inr ⟨owner, start, .inSet htest hstands, howner⟩
  | scan hevent hstray =>
      cases hfault
      obtain ⟨hslot, hbad⟩ := Output.stray?_eq_some hstray
      exact ⟨_, rfl, hslot, hbad, traced_scan hevent hslot hbad⟩
  | later hevent hscan hfails ih =>
      obtain ⟨p, rfl, hslot, hbad, htraced⟩ := ih hfault
      refine ⟨p, rfl, hslot, hbad, ?_⟩
      rcases htraced with ⟨hp, -⟩ | ⟨owner, start, hstands, howner⟩
      · obtain ⟨slots, warnings, rfl⟩ := hfails.adds
        exact (Output.refuted hscan (Generator.getElem?_of_add hslot hp) hbad).elim
      · rw [size_generateEvent hevent] at hstands
        exact .inr ⟨owner, start, .later hstands, howner⟩

/-- An event is blamed for its own slots, but for a test with something in its bodies and a flag
whose index is beyond 16 bits. -/
theorem Emits.firstScanned_eq_or {event : Event} {start p : Nat} {value : Value}
    (h : scope.Emits event start p value) (hbad : Output.acceptable value = false) :
    event.firstScanned = event ∨
      ∃ bodies flag, event.branches? = some bodies ∧ bodies ≠ ([], []) ∧
        Symbols.flagIndex scope.symbols.flags (event.args.get "flag") = .ok flag ∧
        0xffff < flag := by
  cases h with
  | leaf hleaf => exact .inl (Event.firstScanned_leaf hleaf)
  | @header bodies flag k _ htest hflag hslot =>
      by_cases hbare : bodies = ([], [])
      · subst hbare
        exact .inl (Event.firstScanned_bare htest)
      · refine .inr ⟨bodies, flag, htest, hbare, hflag, Nat.lt_of_not_le fun hle => ?_⟩
        exact Output.refuted (Draft.acceptable_header hle) hslot hbad
  | jump _ hslot => exact (Output.refuted Draft.acceptable_jump hslot hbad).elim

/-- A scan that fails reports a slot that exactly one event emits, in the name of the event that
was scanned first once that one had been begun.  The two are the same, unless the slot is in the
header of a test with something in its bodies and a flag whose index is beyond 16 bits. -/
theorem scan_blames_first_scanned {script : Script} {command : String} {args position value : Value}
    {state : Generator}
    (h : scope.generate script {} =
      .error (.compile (.outputFailed (.str command) args position value)) state) :
    ∃ p owner start, position = .nat p ∧ state.output.slots[p]? = some value ∧
      Output.acceptable value = false ∧
      scope.Stands 0 script owner start ∧ scope.Emits owner start p value ∧
      (∀ rival other claimed, scope.Stands 0 script rival other →
        scope.Emits rival other p claimed →
        rival = owner ∧ other = start) ∧
      owner.firstScanned.IsNamed (.str command) args ∧
      (owner.firstScanned = owner ∨
        ∃ bodies flag, owner.branches? = some bodies ∧ bodies ≠ ([], []) ∧
          Symbols.flagIndex scope.symbols.flags (owner.args.get "flag") = .ok flag ∧
          0xffff < flag) := by
  obtain ⟨p, rfl, hslot, hbad, htraced⟩ := (fails_of_generate h).blame rfl
  rcases htraced with ⟨hp, -⟩ | ⟨owner, start, hstands, hemits, hnamed⟩
  · exact absurd hp (Nat.not_lt_zero p)
  · refine ⟨p, owner, start, rfl, hslot, hbad, hstands, hemits, ?_, hnamed,
      hemits.firstScanned_eq_or hbad⟩
    intro rival other claimed hrival hclaims
    exact hstands.emitter_unique hemits hrival hclaims

end Scope

/-! ## A test that others are blamed for -/

/-- More flags than 16 bits can count. -/
def crowdedScope : Scope := ⟨{ flags := List.replicate 0x10000 (.str "lamp") ++ [.str "door"] }, []⟩

/-- If the door is not set, fade in. -/
def crowdedScript : Script := [.whenSet (.str "door") [] [.plain .fadeIn []]]

theorem flagIndex_crowded : Symbols.flagIndex crowdedScope.symbols.flags (.str "door") =
    .ok 0x10000 := by
  have hindex : Value.indexIn? crowdedScope.symbols.flags (.str "door") = some 0x10000 := by
    rw [Value.indexIn?, crowdedScope, List.findIdx?_append, List.findIdx?_replicate,
      List.length_replicate]
    rfl
  rw [Symbols.flagIndex, hindex]

theorem generate_crowded : ∃ state, crowdedScope.generate crowdedScript {} =
    .error (.compile (.outputFailed (.str "EVENT_FADE_IN") (.object []) (.nat 1) (.int 256)))
      state := by
  -- The index is put in before anything is evaluated, so that the table of flags is not
  -- gone through.
  have hflag : Symbols.flagIndex crowdedScope.symbols.flags
      (Fields.get [(.str "flag", .str "door")] "flag") = .ok 0x10000 := flagIndex_crowded
  generalize crowdedScope = scope at hflag ⊢
  rw [Scope.generate_eq, Scope.generateBlock_eq, crowdedScript, Scope.generateEvents_cons,
    Scope.generateEvent_test rfl, Generation.conditional_eq, Event.whenSet, Event.args, hflag]
  exact ⟨_, rfl⟩

/-- The test of the crowded script is what emits the slot that the fade is blamed for. -/
theorem scan_blames_first_scanned_crowded :
    ∃ state, crowdedScope.generate crowdedScript {} =
        .error (.compile (.outputFailed (.str "EVENT_FADE_IN") (.object []) (.nat 1) (.int 256)))
          state ∧
      ∃ p owner start, Value.nat 1 = .nat p ∧ state.output.slots[p]? = some (.int 256) ∧
        crowdedScope.Stands 0 crowdedScript owner start ∧
        crowdedScope.Emits owner start p (.int 256) ∧
        owner.firstScanned.IsNamed (.str "EVENT_FADE_IN") (.object []) := by
  obtain ⟨state, h⟩ := generate_crowded
  obtain ⟨p, owner, start, hp, hslot, -, hstands, hemits, -, hnamed, -⟩ :=
    Scope.scan_blames_first_scanned h
  exact ⟨state, h, p, owner, start, hp, hslot, hstands, hemits, hnamed⟩

/-- The fade in the body is blamed for a slot that no event of its command and arguments emits. -/
theorem scan_blames_event_of_body :
    ∃ state, crowdedScope.generate crowdedScript {} =
        .error (.compile (.outputFailed (.str "EVENT_FADE_IN") (.object []) (.nat 1) (.int 256)))
          state ∧
      ¬ ∃ owner start value, crowdedScope.Stands 0 crowdedScript owner start ∧
        crowdedScope.Emits owner start 1 value ∧ owner.IsNamed (.str "EVENT_FADE_IN")
          (.object []) := by
  obtain ⟨state, h⟩ := generate_crowded
  refine ⟨state, h, ?_⟩
  rintro ⟨owner, start, value, hstands, hemits, hnamed, -⟩
  have htest : crowdedScope.Emits (.whenSet (.str "door") [] [.plain .fadeIn []]) 0 (0 + 1)
      (.int 256) :=
    .header rfl flagIndex_crowded rfl
  obtain ⟨rfl, -⟩ := Scope.Stands.emitter_unique .here htest hstands hemits
  injection hnamed with hcommand
  exact absurd hcommand (by decide)

end SceneScript
