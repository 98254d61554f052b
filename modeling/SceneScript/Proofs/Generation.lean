import SceneScript.Proofs.Emission
import SceneScript.Proofs.Output
import SceneScript.Proofs.Plan

/-!
# One pass equals two

Generation writes a test before it knows the addresses in it, and patches them in the middle of
a buffer in which enclosing tests still have open slots of their own.  The plan of a script has
no open slots: its sizes come first, and all addresses follow from them.  The two agree.
Wherever the output ends before a script is laid out, what is added to it is the code of the
plan at that base, and with acceptable names and operands the only way to fail is an address
beyond 16 bits.

All states of a run are written as the start plus what has been added, `Generator.add`; each
step has one equation on such states, and no proof below looks into a step again.
-/

namespace SceneScript

/-! ## States with something added -/

/-- A state of generation with slots and warnings added at the end. -/
def Generator.add (s : Generator) (slots : List Value) (warnings : List Warning) : Generator :=
  ⟨⟨s.output.slots ++ slots⟩, s.warnings ++ warnings⟩

namespace Generator

@[simp] theorem slots_add (s : Generator) (slots : List Value) (warnings : List Warning) :
    (s.add slots warnings).output.slots = s.output.slots ++ slots := rfl

@[simp] theorem size_add (s : Generator) (slots : List Value) (warnings : List Warning) :
    (s.add slots warnings).output.size = s.output.size + slots.length := by
  simp only [Output.size, slots_add, List.length_append]

@[simp] theorem add_add (s : Generator) (slots more : List Value) (warnings others : List Warning) :
    (s.add slots warnings).add more others = s.add (slots ++ more) (warnings ++ others) := by
  simp only [add, List.append_assoc]

theorem add_nil (s : Generator) : s.add [] [] = s := by
  simp only [add, List.append_nil]

/-! Three states of a conditional: its code for a clear flag comes next; its code for a set flag
comes next; it is complete.  In the first two an address is open. -/

/-- The state after the header of a conditional. -/
def opened (s : Generator) (flag : Nat) : Generator :=
  s.add (Draft.slots ⟨.ifTrue, Operand.word flag⟩ ++ [.null, .null]) []

/-- The state after the jump of a conditional. -/
def turned (s : Generator) (flag : Nat) (clear : List Value) (warnings : List Warning) :
    Generator :=
  s.add (Draft.slots ⟨.ifTrue, Operand.word flag⟩ ++
    Operand.word (s.output.size + 8 + clear.length) ++
    clear ++ Draft.slots ⟨.jump, []⟩ ++ [.null, .null]) warnings

/-- The state after a conditional. -/
def closed (s : Generator) (flag : Nat) (clear set : List Value) (warnings : List Warning) :
    Generator :=
  s.add (Draft.slots ⟨.ifTrue, Operand.word flag⟩ ++
    Operand.word (s.output.size + 8 + clear.length) ++
    clear ++ Draft.slots ⟨.jump, []⟩ ++
    Operand.word (s.output.size + 8 + clear.length + set.length) ++ set) warnings

theorem size_opened (s : Generator) (flag : Nat) :
    (s.opened flag).output.size = s.output.size + 5 := by
  simp only [opened, size_add, Draft.slots, Operand.word, List.length_append, List.length_cons,
    List.length_nil]

theorem size_turned (s : Generator) (flag : Nat) (clear : List Value) (warnings : List Warning) :
    (s.turned flag clear warnings).output.size = s.output.size + 8 + clear.length := by
  simp only [turned, size_add, Draft.slots, Operand.word, List.length_append, List.length_cons,
    List.length_nil]
  omega

theorem size_closed (s : Generator) (flag : Nat) (clear set : List Value)
    (warnings : List Warning) :
    (s.closed flag clear set warnings).output.size =
      s.output.size + 8 + clear.length + set.length := by
  simp only [closed, size_add, Draft.slots, Operand.word, List.length_append, List.length_cons,
    List.length_nil]
  omega

end Generator

/-! ## The steps of generation -/

namespace Generation

theorem orFail_ok {α : Type} {r : Except Fault α} {a : α} {s s' : Generator} :
    orFail r s = .ok a s' ↔ r = .ok a ∧ s' = s := by
  cases r with
  | ok b =>
      show EStateM.Result.ok b s = _ ↔ _
      simp [eq_comm]
  | error e =>
      show EStateM.Result.error _ s = _ ↔ _
      simp

theorem extend_run (values : List Value) (s : Generator) :
    extend values s = .ok () (s.add values []) := by
  simp only [Generator.add, List.append_nil]
  rfl

theorem warn_run (warning : Warning) (s : Generator) :
    warn warning s = .ok () (s.add [] [warning]) := by
  simp only [Generator.add, List.append_nil]
  rfl

theorem warnAll_run (warnings : List Warning) (s : Generator) :
    warnings.forM warn s = .ok () (s.add [] warnings) := by
  induction warnings generalizing s with
  | nil =>
      rw [s.add_nil]
      rfl
  | cons warning rest ih =>
      refine bind_ok.mpr ⟨(), _, warn_run warning s, ?_⟩
      rw [ih, Generator.add_add]
      rfl

theorem place_run (e : Emission) (s : Generator) :
    place e s = .ok () (s.add e.slots e.warnings) := by
  refine bind_ok.mpr ⟨(), _, warnAll_run e.warnings s, ?_⟩
  show extend e.slots _ = _
  rw [extend_run, Generator.add_add, List.append_nil]
  rfl

theorem reserve_run (s : Generator) :
    reserve s = .ok s.output.size (s.add [.null, .null] []) := by
  simp only [Generator.add, List.append_nil]
  rfl

/-- The scan passes output that holds nothing but bytes and open slots, and changes nothing. -/
theorem check_ok {command args : Value} {s s' : Generator} {u : Unit} :
    check command args s = .ok u s' ↔
      (∀ slot ∈ s.output.slots, Output.acceptable slot) ∧ s' = s := by
  rw [← @Output.check_ok s.output command args, check, get_bind]
  cases s.output.check command args with
  | ok _ =>
      show EStateM.Result.ok () s = _ ↔ _
      simp [eq_comm]
  | error fault =>
      show EStateM.Result.error fault s = _ ↔ _
      simp

theorem freeze_ok {s s' : Generator} {program : Program} :
    freeze s = .ok program s' ↔ s.output.freeze = .ok program ∧ s' = s := by
  rw [freeze, get_bind]
  cases s.output.freeze with
  | ok found =>
      show EStateM.Result.ok found s = _ ↔ _
      simp [eq_comm]
  | error fault =>
      show EStateM.Result.error fault s = _ ↔ _
      simp

/-- Patching with the address of the next byte: it has to fit in 16 bits, and only the two open
slots change. -/
theorem patchHere_ok {s s' : Generator} {front back : List Value} {warnings : List Warning}
    {place n : Nat} (hplace : place = s.output.size + front.length)
    (hn : n = place + 2 + back.length) :
    patchHere place (s.add (front ++ .null :: .null :: back) warnings) = .ok () s' ↔
      n ≤ 0xffff ∧ s' = s.add (front ++ Operand.word n ++ back) warnings := by
  have hsize : (s.add (front ++ .null :: .null :: back) warnings).output.size = n := by
    simp only [Generator.size_add, List.length_append, List.length_cons]
    omega
  unfold patchHere
  rw [hsize]
  by_cases h : n ≤ 0xffff
  · have hout : (s.add (front ++ .null :: .null :: back) warnings).output =
        ⟨(s.output.slots ++ front) ++ .null :: .null :: back⟩ := by
      simp only [Generator.add, List.append_assoc]
    have hlength : place = (s.output.slots ++ front).length := by
      rw [hplace, List.length_append, Output.size]
    rw [hout, hlength, Output.patch_open h]
    simp [Generator.add, h, eq_comm]
  · rw [Output.patch_refused (by omega)]
    simp [h]

theorem conditional_eq (scope : Scope) (args : Fields) (whenSet whenClear : Generation Unit) :
    conditional scope args whenSet whenClear = (do
      let index ← orFail (Symbols.flagIndex scope.symbols.flags (args.get "flag"))
      extend (Draft.slots ⟨.ifTrue, Operand.word index⟩)
      let setAddress ← reserve
      whenClear
      extend (Draft.slots ⟨.jump, []⟩)
      let endAddress ← reserve
      patchHere setAddress
      whenSet
      patchHere endAddress) := rfl

/-- A conditional, step by step. -/
theorem conditional_ok {scope : Scope} {args : Fields} {whenSet whenClear : Generation Unit}
    {s s' : Generator} :
    conditional scope args whenSet whenClear s = .ok () s' ↔
      ∃ flag s₁ s₂ s₃, Symbols.flagIndex scope.symbols.flags (args.get "flag") = .ok flag ∧
        whenClear (s.opened flag) = .ok () s₁ ∧
        patchHere (s.output.size + 3)
          (s₁.add (Draft.slots ⟨.jump, []⟩ ++ [.null, .null]) []) = .ok () s₂ ∧
        whenSet s₂ = .ok () s₃ ∧ patchHere (s₁.output.size + 1) s₃ = .ok () s' := by
  rw [conditional_eq]
  simp only [bind_ok, orFail_ok, extend_run, reserve_run, EStateM.Result.ok.injEq]
  constructor
  · rintro ⟨flag, _, ⟨hflag, rfl⟩, _, _, ⟨-, rfl⟩, _, _, ⟨rfl, rfl⟩, _, s₁, hclear, _, _,
      ⟨-, rfl⟩, _, _, ⟨rfl, rfl⟩, _, s₂, hpatch, _, s₃, hset, hend⟩
    rw [Generator.add_add] at hclear hpatch
    rw [Generator.size_add] at hpatch hend
    exact ⟨flag, s₁, s₂, s₃, hflag, hclear, hpatch, hset, hend⟩
  · rintro ⟨flag, s₁, s₂, s₃, hflag, hclear, hpatch, hset, hend⟩
    refine ⟨flag, s, ⟨hflag, rfl⟩, (), _, ⟨trivial, rfl⟩, _, _, ⟨rfl, rfl⟩, (), s₁, ?_, (), _,
      ⟨trivial, rfl⟩, _, _, ⟨rfl, rfl⟩, (), s₂, ?_, (), s₃, hset, ?_⟩
    · rw [Generator.add_add]
      exact hclear
    · rw [Generator.add_add, Generator.size_add]
      exact hpatch
    · rw [Generator.size_add]
      exact hend

/-- The first patch of a conditional, when its code for a clear flag is in place. -/
theorem patchSet_ok {s s₂ : Generator} {flag : Nat} {clear : List Value} {warnings : List Warning} :
    patchHere (s.output.size + 3)
        (((s.opened flag).add clear warnings).add (Draft.slots ⟨.jump, []⟩ ++ [.null, .null]) []) =
        .ok () s₂ ↔
      s.output.size + 8 + clear.length ≤ 0xffff ∧ s₂ = s.turned flag clear warnings := by
  have hstate : ((s.opened flag).add clear warnings).add
      (Draft.slots ⟨.jump, []⟩ ++ [.null, .null]) [] =
        s.add (Draft.slots ⟨.ifTrue, Operand.word flag⟩ ++ .null :: .null ::
          (clear ++ Draft.slots ⟨.jump, []⟩ ++ [.null, .null])) warnings := by
    simp only [Generator.opened, Generator.add_add, List.append_assoc, List.cons_append,
      List.nil_append, List.append_nil]
  have hsize : s.output.size + 8 + clear.length = s.output.size + 3 + 2 +
      (clear ++ Draft.slots ⟨.jump, []⟩ ++ [Value.null, Value.null]).length := by
    simp only [List.length_append, Draft.slots, List.length_cons, List.length_nil]
    omega
  rw [hstate]
  refine (patchHere_ok rfl hsize).trans ?_
  simp only [Generator.turned, List.append_assoc]

/-- The second patch of a conditional, when its code for a set flag is in place too. -/
theorem patchEnd_ok {s s' : Generator} {flag : Nat} {clear set : List Value}
    {warnings others : List Warning} :
    patchHere (((s.opened flag).add clear warnings).output.size + 1)
        ((s.turned flag clear warnings).add set others) = .ok () s' ↔
      s.output.size + 8 + clear.length + set.length ≤ 0xffff ∧
        s' = s.closed flag clear set (warnings ++ others) := by
  have hplace : ((s.opened flag).add clear warnings).output.size + 1 = s.output.size +
      (Draft.slots ⟨.ifTrue, Operand.word flag⟩ ++
        Operand.word (s.output.size + 8 + clear.length) ++
        clear ++ Draft.slots ⟨.jump, []⟩).length := by
    simp only [Generator.size_add, Generator.size_opened, List.length_append,
      Draft.slots, Operand.word, List.length_cons, List.length_nil]
    omega
  have hsize : s.output.size + 8 + clear.length + set.length =
      ((s.opened flag).add clear warnings).output.size + 1 + 2 + set.length := by
    simp only [Generator.size_add, Generator.size_opened]
    omega
  have hstate : (s.turned flag clear warnings).add set others =
      s.add (Draft.slots ⟨.ifTrue, Operand.word flag⟩ ++
        Operand.word (s.output.size + 8 + clear.length) ++
        clear ++ Draft.slots ⟨.jump, []⟩ ++ .null :: .null :: set) (warnings ++ others) := by
    simp only [Generator.turned, Generator.add_add, List.append_assoc, List.cons_append,
      List.nil_append]
  rw [hstate]
  exact patchHere_ok hplace hsize

end Generation

/-! ## When a plan fits -/

theorem Draft.fits_slots {d : Draft} : (∀ slot ∈ d.slots, slot.byte?.isSome) ↔ d.Fits := by
  have hbyte : (Value.nat d.opcode.byte.toNat).byte?.isSome := by
    have := d.opcode.byte.toNat_lt
    rw [Value.byte?_int, if_pos (by omega)]
    rfl
  simp only [Draft.slots, List.forall_mem_cons, hbyte, true_and, Draft.Fits]

theorem Draft.fits_flatMap {drafts : List Draft} :
    (∀ slot ∈ drafts.flatMap Draft.slots, slot.byte?.isSome) ↔ ∀ d ∈ drafts, d.Fits := by
  simp only [List.mem_flatMap, ← Draft.fits_slots]
  constructor
  · intro h d hd slot hslot
    exact h slot ⟨d, hd, hslot⟩
  · rintro h slot ⟨d, hd, hslot⟩
    exact h d hd slot hslot

/-! What is added on the way passes the scan. -/

theorem Draft.acceptable_flatMap {drafts : List Draft} (h : ∀ d ∈ drafts, d.Fits) :
    ∀ slot ∈ drafts.flatMap Draft.slots, Output.acceptable slot :=
  Output.acceptable_of_bytes (Draft.fits_flatMap.mpr h)

theorem Operand.acceptable_word {n : Nat} (h : n ≤ 0xffff) :
    ∀ slot ∈ word n, Output.acceptable slot :=
  Output.acceptable_of_bytes ((word_fits_iff n).mpr h)

theorem Draft.acceptable_header {flag : Nat} (h : flag ≤ 0xffff) :
    ∀ slot ∈ Draft.slots ⟨.ifTrue, Operand.word flag⟩, Output.acceptable slot :=
  Output.acceptable_of_bytes (Draft.fits_slots.mpr ((Operand.word_fits_iff flag).mpr h))

theorem Draft.acceptable_jump : ∀ slot ∈ Draft.slots ⟨.jump, []⟩, Output.acceptable slot :=
  Output.acceptable_of_bytes (Draft.fits_slots.mpr fun _ hv => absurd hv List.not_mem_nil)

theorem Output.acceptable_open : ∀ slot ∈ [Value.null, Value.null], Output.acceptable slot := by
  simp [Output.acceptable, Value.isNull]

/-! The drafts of a plan, part by part. -/

theorem Plan.fits_straight {emission : Emission} {next : Plan} {base : Nat} :
    (∀ d ∈ (Plan.straight emission next).drafts base, d.Fits) ↔
      (∀ d ∈ emission.drafts, d.Fits) ∧
        ∀ d ∈ next.drafts (base + emission.slots.length), d.Fits := by
  rw [Plan.drafts, List.forall_mem_append]

theorem Plan.fits_test {flag : Nat} {whenSet whenClear next : Plan} {base : Nat} :
    (∀ d ∈ (Plan.test flag whenSet whenClear next).drafts base, d.Fits) ↔
      (flag ≤ 0xffff ∧ base + 8 + whenClear.size ≤ 0xffff ∧
        base + 8 + whenClear.size + whenSet.size ≤ 0xffff) ∧
      (∀ d ∈ whenClear.drafts (base + 5), d.Fits) ∧
      (∀ d ∈ whenSet.drafts (base + 8 + whenClear.size), d.Fits) ∧
      ∀ d ∈ next.drafts (base + 8 + whenClear.size + whenSet.size), d.Fits := by
  simp only [Plan.drafts, List.forall_mem_append, List.forall_mem_cons, Draft.Fits,
    Operand.word_fits_iff]
  constructor
  · rintro ⟨⟨⟨⟨hflag, hturn⟩, hclear⟩, hstop, hset⟩, hnext⟩
    exact ⟨⟨hflag, hturn, hstop⟩, hclear, hset, hnext⟩
  · rintro ⟨⟨hflag, hturn, hstop⟩, hclear, hset, hnext⟩
    exact ⟨⟨⟨⟨hflag, hturn⟩, hclear⟩, hstop, hset⟩, hnext⟩

/-- The drafts of a plan fit when its operands and flags do and so do the addresses. -/
theorem Plan.fits_iff {plan : Plan} {base : Nat} :
    (∀ d ∈ plan.drafts base, d.Fits) ↔ plan.OperandsFit ∧
    ∀ a ∈ plan.addresses base, a ≤ 0xffff := by
  induction plan generalizing base with
  | done => simp [Plan.drafts, Plan.OperandsFit, Plan.addresses]
  | straight emission next ih =>
      rw [Plan.fits_straight, ih, Plan.OperandsFit, Plan.addresses, and_assoc]
  | test flag whenSet whenClear next ihSet ihClear ih =>
      simp only [Plan.fits_test, ihClear, ihSet, ih, Plan.OperandsFit, Plan.addresses,
        List.forall_mem_append, List.forall_mem_cons]
      constructor
      · rintro ⟨⟨hflag, hat, hend⟩, ⟨hclear, hclearAt⟩, ⟨hset, hsetAt⟩, hnext, hnextAt⟩
        exact ⟨⟨hflag, hset, hclear, hnext⟩, ⟨⟨hat, hend, hclearAt⟩, hsetAt⟩, hnextAt⟩
      · rintro ⟨⟨hflag, hset, hclear, hnext⟩, ⟨⟨hat, hend, hclearAt⟩, hsetAt⟩, hnextAt⟩
        exact ⟨⟨hflag, hat, hend⟩, ⟨hclear, hclearAt⟩, ⟨hset, hsetAt⟩, hnext, hnextAt⟩

theorem Plan.fits_whole {plan : Plan} :
    (∀ d ∈ plan.whole, d.Fits) ↔ ∀ d ∈ plan.drafts 0, d.Fits := by
  rw [Plan.whole, List.forall_mem_append, List.forall_mem_singleton]
  exact and_iff_left fun _ hv => absurd hv List.not_mem_nil

/-- Every draft of a plan is complete. -/
theorem Planned.complete {scope : Scope} {script : Script} {plan : Plan}
    (h : Planned scope script plan) (base : Nat) : ∀ d ∈ plan.drafts base, d.Complete := by
  induction h generalizing base with
  | nil => exact fun _ hd => absurd hd List.not_mem_nil
  | leaf _ hemit _ ih =>
      rw [Plan.drafts, List.forall_mem_append]
      exact ⟨fun d hd => (Scope.within_emit hemit d hd).2, ih _⟩
  | test _ _ _ _ _ ihSet ihClear ih =>
      simp only [Plan.drafts, List.forall_mem_append, List.forall_mem_cons]
      refine ⟨⟨⟨⟨rfl, fun v hv => ?_⟩, ihClear _⟩, ⟨rfl, Scope.given_word _⟩, ihSet _⟩, ih _⟩
      rcases List.mem_append.mp hv with hv | hv
      · exact Scope.given_word _ v hv
      · exact Scope.given_word _ v hv

/-- No slot in the code of a plan is open. -/
theorem Planned.slots_given {scope : Scope} {script : Script} {plan : Plan}
    (h : Planned scope script plan) (base : Nat) :
    ∀ slot ∈ plan.slots base, slot.isNull = false := by
  intro slot hslot
  obtain ⟨d, hd, hslot⟩ := List.mem_flatMap.mp hslot
  rcases List.mem_cons.mp hslot with rfl | hslot
  · rfl
  · exact (h.complete base d hd).given slot hslot

/-! ## Events -/

namespace Scope

variable {scope : Scope}

theorem generateEvents_nil : scope.generateEvents [] = pure () := by
  rw [generateEvents, layOutEvents]

theorem generateEvents_cons (event : Event) (rest : Script) :
    scope.generateEvents (event :: rest) = (do
      scope.generateEvent event
      Generation.check (.str event.kind.command) (.object event.args)
      scope.generateEvents rest) := by
  rw [generateEvents, layOutEvents]
  rfl

/-- Events are laid out one after the other, each followed by a scan that has to pass. -/
theorem generateEvents_cons_ok {event : Event} {rest : Script} {s s' : Generator} :
    scope.generateEvents (event :: rest) s = .ok () s' ↔
      ∃ t, scope.generateEvent event s = .ok () t ∧
        (∀ slot ∈ t.output.slots, Output.acceptable slot) ∧
        scope.generateEvents rest t = .ok () s' := by
  rw [generateEvents_cons]
  simp only [bind_ok, Generation.check_ok]
  constructor
  · rintro ⟨_, t, hevent, _, _, ⟨hscan, rfl⟩, hrest⟩
    exact ⟨_, hevent, hscan, hrest⟩
  · rintro ⟨t, hevent, hscan, hrest⟩
    exact ⟨(), t, hevent, (), t, ⟨hscan, rfl⟩, hrest⟩

theorem generateEvent_leaf {event : Event} (h : event.branches? = none) :
    scope.generateEvent event =
      Generation.orFail (scope.emit event.kind event.args) >>= Generation.place :=
  layOutEvent_leaf h

/-- An event that is no test adds what its kind emits. -/
theorem generateEvent_leaf_ok {event : Event} (h : event.branches? = none) {s s' : Generator} :
    scope.generateEvent event s = .ok () s' ↔
      ∃ emission, scope.emit event.kind event.args = .ok emission ∧
        s' = s.add emission.slots emission.warnings := by
  rw [generateEvent_leaf h, bind_ok]
  simp only [Generation.orFail_ok, Generation.place_run, EStateM.Result.ok.injEq]
  constructor
  · rintro ⟨emission, _, ⟨hemit, rfl⟩, -, rfl⟩
    exact ⟨emission, hemit, rfl⟩
  · rintro ⟨emission, hemit, rfl⟩
    exact ⟨emission, s, ⟨hemit, rfl⟩, trivial, rfl⟩

theorem generateEvent_test {event : Event} {whenSet whenClear : Script}
    (h : event.branches? = some (whenSet, whenClear)) :
    scope.generateEvent event =
      Generation.conditional scope event.args (scope.generateEvents whenSet)
        (scope.generateEvents whenClear) :=
  layOutEvent_test h

/-- A run of generation that succeeds has planned the script and added the code of the plan.
All addresses in it fit. -/
theorem generateEvents_ok {script : Script} {s s' : Generator}
    (h : scope.generateEvents script s = .ok () s') :
    ∃ plan, Planned scope script plan ∧ s' = s.add (plan.slots s.output.size) plan.warnings ∧
      ∀ a ∈ plan.addresses s.output.size, a ≤ 0xffff := by
  induction script using Script.induction generalizing s s' with
  | nil =>
      rw [generateEvents_nil] at h
      cases h
      exact ⟨.done, .nil, s.add_nil.symm, fun _ ha => absurd ha List.not_mem_nil⟩
  | leaf event rest hleaf ih =>
      obtain ⟨_, hevent, -, hrest⟩ := generateEvents_cons_ok.mp h
      obtain ⟨emission, hemit, rfl⟩ := (generateEvent_leaf_ok hleaf).mp hevent
      obtain ⟨next, hnext, rfl, haddresses⟩ := ih hrest
      rw [Generator.size_add] at haddresses
      refine ⟨.straight emission next, .leaf hleaf hemit hnext, ?_, haddresses⟩
      rw [Generator.add_add, Generator.size_add, Plan.slots_straight, Plan.warnings]
  | test event rest whenSet whenClear htest ihSet ihClear ih =>
      obtain ⟨s₄, hevent, -, hrest⟩ := generateEvents_cons_ok.mp h
      rw [generateEvent_test htest, Generation.conditional_ok] at hevent
      obtain ⟨flag, s₁, s₂, s₃, hflag, hclear, hpatch, hset, hend⟩ := hevent
      obtain ⟨clear, hplanClear, rfl, hclearFits⟩ := ihClear hclear
      obtain ⟨hsetFit, rfl⟩ := Generation.patchSet_ok.mp hpatch
      obtain ⟨set, hplanSet, rfl, hsetFits⟩ := ihSet hset
      obtain ⟨hendFit, rfl⟩ := Generation.patchEnd_ok.mp hend
      obtain ⟨next, hplan, rfl, hnextFits⟩ := ih hrest
      simp only [Generator.size_opened, Generator.size_turned, Generator.size_closed,
        Plan.length_slots] at hclearFits hsetFit hsetFits hendFit hnextFits ⊢
      refine ⟨.test flag set clear next, .test htest hflag hplanSet hplanClear hplan, ?_, ?_⟩
      · simp only [Generator.closed, Generator.add_add, Plan.slots_test, Plan.warnings,
          Plan.length_slots, List.append_assoc]
      · simp only [Plan.addresses, List.mem_append, List.mem_cons]
        rintro a (((rfl | rfl | ha) | ha) | ha)
        · exact hsetFit
        · exact hendFit
        · exact hclearFits a ha
        · exact hsetFits a ha
        · exact hnextFits a ha

/-- Conversely, if the output so far passes the scan and the drafts of a plan fit, the run
succeeds. -/
theorem generateEvents_of_fits {script : Script} {plan : Plan} (h : Planned scope script plan)
    {s : Generator} (hs : ∀ slot ∈ s.output.slots, Output.acceptable slot)
    (hfits : ∀ d ∈ plan.drafts s.output.size, d.Fits) :
    scope.generateEvents script s = .ok () (s.add (plan.slots s.output.size) plan.warnings) := by
  induction h generalizing s with
  | nil =>
      rw [generateEvents_nil, Plan.slots_done, Plan.warnings, s.add_nil]
      rfl
  | @leaf event rest emission next hleaf hemit _ ih =>
      obtain ⟨hemission, hnext⟩ := Plan.fits_straight.mp hfits
      have hscan : ∀ slot ∈ (s.add emission.slots emission.warnings).output.slots,
          Output.acceptable slot := by
        rw [Generator.slots_add, List.forall_mem_append]
        exact ⟨hs, Draft.acceptable_flatMap hemission⟩
      have hrest := ih hscan (by rw [Generator.size_add]; exact hnext)
      rw [Generator.add_add, Generator.size_add] at hrest
      rw [Plan.slots_straight, Plan.warnings]
      exact generateEvents_cons_ok.mpr
        ⟨_, (generateEvent_leaf_ok hleaf).mpr ⟨emission, hemit, rfl⟩, hscan, hrest⟩
  | @test event rest whenSet whenClear flag set clear next htest hflag _ _ _ ihSet ihClear ih =>
      obtain ⟨⟨hflagFits, hsetAt, hendAt⟩, hclear, hset, hnext⟩ := Plan.fits_test.mp hfits
      -- every scan on the way passes: what has been added is bytes, but for one address
      -- that is open
      have hopened : ∀ slot ∈ (s.opened flag).output.slots, Output.acceptable slot := by
        simp only [Generator.opened, Generator.slots_add, List.forall_mem_append]
        exact ⟨hs, Draft.acceptable_header hflagFits, Output.acceptable_open⟩
      have hturned : ∀ slot ∈ (s.turned flag (clear.slots (s.output.size + 5))
          clear.warnings).output.slots,
          Output.acceptable slot := by
        simp only [Generator.turned, Generator.slots_add, List.forall_mem_append, Plan.length_slots]
        exact ⟨hs, ⟨⟨⟨Draft.acceptable_header hflagFits, Operand.acceptable_word hsetAt⟩,
          Draft.acceptable_flatMap hclear⟩, Draft.acceptable_jump⟩, Output.acceptable_open⟩
      have hclosed : ∀ slot ∈ (s.closed flag (clear.slots (s.output.size + 5))
          (set.slots (s.output.size + 8 + clear.size))
          (clear.warnings ++ set.warnings)).output.slots, Output.acceptable slot := by
        simp only [Generator.closed, Generator.slots_add, List.forall_mem_append, Plan.length_slots]
        exact ⟨hs, ⟨⟨⟨⟨Draft.acceptable_header hflagFits, Operand.acceptable_word hsetAt⟩,
          Draft.acceptable_flatMap hclear⟩, Draft.acceptable_jump⟩, Operand.acceptable_word hendAt⟩,
          Draft.acceptable_flatMap hset⟩
      have hclearRun := ihClear hopened (by rw [Generator.size_opened]; exact hclear)
      have hsetRun := ihSet hturned (by rw [Generator.size_turned, Plan.length_slots]; exact hset)
      have hnextRun := ih hclosed (by
        rw [Generator.size_closed, Plan.length_slots, Plan.length_slots]; exact hnext)
      rw [Generator.size_opened] at hclearRun
      rw [Generator.size_turned, Plan.length_slots] at hsetRun
      rw [Generator.size_closed, Plan.length_slots, Plan.length_slots] at hnextRun
      refine generateEvents_cons_ok.mpr ⟨_, ?_, hclosed, ?_⟩
      · rw [generateEvent_test htest]
        refine Generation.conditional_ok.mpr ⟨flag, _, _, _, hflag, hclearRun,
          Generation.patchSet_ok.mpr ⟨?_, rfl⟩, hsetRun, Generation.patchEnd_ok.mpr ⟨?_, rfl⟩⟩
        · rw [Plan.length_slots]
          exact hsetAt
        · rw [Plan.length_slots, Plan.length_slots]
          exact hendAt
      · rw [hnextRun]
        simp only [Generator.closed, Generator.add_add, Plan.slots_test, Plan.warnings,
          Plan.length_slots, List.append_assoc]

theorem generateBlock_eq (script : Script) (isBody : Bool) :
    scope.generateBlock script isBody = (do
      scope.generateEvents script
      if !isBody then Generation.extend (Draft.slots ⟨.halt, []⟩)) := rfl

theorem generate_eq (script : Script) :
    scope.generate script = (do
      scope.generateBlock script false
      Generation.freeze) := rfl

theorem generateBlock_body (script : Script) :
    scope.generateBlock script true = scope.generateEvents script := by
  simp only [generateBlock_eq, Bool.not_true, Bool.false_eq_true, if_false]
  exact bind_pure _

/-- A whole run from empty output succeeds just when the script has a plan and the drafts of it
fit.  They and the final end fill the output then, and the program is their bytes. -/
theorem generate_ok_iff {script : Script} {program : Program} {state : Generator} :
    scope.generate script {} = .ok program state ↔
      ∃ plan, Planned scope script plan ∧ (∀ d ∈ plan.drafts 0, d.Fits) ∧
        state = ⟨⟨plan.whole.flatMap Draft.slots⟩, plan.warnings⟩ ∧
        program = (plan.whole.flatMap Draft.slots).filterMap Value.byte? := by
  have hadd : ∀ plan : Plan, (({} : Generator).add (plan.slots 0) plan.warnings).add
      (Draft.slots ⟨.halt, []⟩) [] = ⟨⟨plan.whole.flatMap Draft.slots⟩, plan.warnings⟩ := by
    intro plan
    simp only [Generator.add, Plan.whole, Plan.slots, List.flatMap_append, List.flatMap_cons,
      List.flatMap_nil, List.append_nil, List.nil_append]
  simp only [generate_eq, generateBlock_eq, bind_ok, Bool.not_false, if_true, Generation.extend_run,
    EStateM.Result.ok.injEq, Generation.freeze_ok, Output.freeze_ok]
  constructor
  · rintro ⟨_, _, ⟨_, t, hrun, -, rfl⟩, ⟨hbytes, hprogram⟩, rfl⟩
    obtain ⟨plan, hplan, hadded, -⟩ := generateEvents_ok hrun
    have hstate : t.add (Draft.slots ⟨.halt, []⟩) [] =
        ⟨⟨plan.whole.flatMap Draft.slots⟩, plan.warnings⟩ := by
      rw [hadded]
      exact hadd plan
    rw [hstate] at hbytes hprogram ⊢
    exact ⟨plan, hplan, Plan.fits_whole.mp (Draft.fits_flatMap.mp hbytes), rfl, hprogram⟩
  · rintro ⟨plan, hplan, hfits, rfl, rfl⟩
    have hrun : scope.generateEvents script {} =
        .ok () (({} : Generator).add (plan.slots 0) plan.warnings) :=
      generateEvents_of_fits hplan (fun _ hslot => absurd hslot List.not_mem_nil) hfits
    refine ⟨(), _, ⟨(), _, hrun, trivial, hadd plan⟩, ⟨?_, rfl⟩, rfl⟩
    exact Draft.fits_flatMap.mpr (Plan.fits_whole.mpr hfits)

theorem generate_ok {script : Script} {program : Program} {state : Generator}
    (h : scope.generate script {} = .ok program state) :
    ∃ plan, Planned scope script plan ∧ state.output.slots = plan.whole.flatMap Draft.slots ∧
      (∀ d ∈ plan.whole, d.Fits) ∧ program = state.output.slots.filterMap Value.byte? := by
  obtain ⟨plan, hplan, hfits, rfl, hprogram⟩ := generate_ok_iff.mp h
  exact ⟨plan, hplan, rfl, Plan.fits_whole.mpr hfits, hprogram⟩

/-- **One pass equals two.**  If a body is laid out at the end of any output, the script has a
plan, and the output is what it was followed by the code of the plan at that base, with no slot
open.  If the output so far passes the scan and all names and operands of the script are
acceptable, the only failure is an address beyond 16 bits. -/
theorem generateBlock_eq_plan (scope : Scope) (script : Script) (s : Generator) :
    (∀ s', scope.generateBlock script true s = .ok () s' →
      (∃ plan, Planned scope script plan) ∧
      ∀ plan, Planned scope script plan →
        s'.output.slots = s.output.slots ++ plan.slots s.output.size ∧
        ∀ slot ∈ plan.slots s.output.size, slot.isNull = false) ∧
    ∀ plan, Planned scope script plan → plan.OperandsFit →
      (∀ slot ∈ s.output.slots, Output.acceptable slot) →
      ((∃ fault s', scope.generateBlock script true s = .error fault s') ↔
        ∃ a ∈ plan.addresses s.output.size, 0xffff < a) := by
  rw [generateBlock_body]
  constructor
  · intro s' h
    obtain ⟨plan, hplan, rfl, -⟩ := generateEvents_ok h
    refine ⟨⟨plan, hplan⟩, fun other hother => ?_⟩
    obtain rfl := hplan.unique hother
    exact ⟨rfl, hplan.slots_given _⟩
  · intro plan hplan hfit hs
    constructor
    · rintro ⟨fault, s', herror⟩
      apply Classical.byContradiction
      intro hnone
      have haddresses : ∀ a ∈ plan.addresses s.output.size, a ≤ 0xffff := fun a ha =>
        Nat.le_of_not_lt fun hlt => hnone ⟨a, ha, hlt⟩
      have hok := generateEvents_of_fits hplan hs (Plan.fits_iff.mpr ⟨hfit, haddresses⟩)
      rw [hok] at herror
      cases herror
    · rintro ⟨a, ha, hlt⟩
      cases hrun : scope.generateEvents script s with
      | error fault s' => exact ⟨fault, s', rfl⟩
      | ok _ s' =>
          obtain ⟨other, hother, -, haddresses⟩ := generateEvents_ok hrun
          obtain rfl := hplan.unique hother
          exact absurd (haddresses a ha) (by omega)

end Scope

/-! ## A nested script

A test for a clear flag with another test in its second body; the two bodies of that one are a
stop and nothing. -/

/-- Two flags and nothing else. -/
def nestedScope : Scope := ⟨{ flags := [.str "lamp", .str "door"] }, []⟩

/-- If the door is not set, set the lamp; else, if the lamp is not set, stop. -/
def nestedScript : Script :=
  [.whenClear (.str "door") [.plain .setTrue [(.str "flag", .str "lamp")]]
    [.whenSet (.str "lamp") [] [.plain .stop []]]]

/-- The plan of the nested script. -/
def nestedPlan : Plan :=
  .test 1 (.test 0 .done (.straight (.single .halt) .done) .done)
    (.straight (.single .setTrue (Operand.word 0)) .done) .done

theorem planned_nested : Planned nestedScope nestedScript nestedPlan :=
  .test rfl rfl (.test rfl rfl .nil (.leaf rfl rfl .nil) .nil) (.leaf rfl rfl .nil) .nil

theorem generate_nested : ∃ program state,
    nestedScope.generate nestedScript {} = .ok program state :=
  ⟨_, _, rfl⟩

/-- The nested script behind a header whose address is still open, and behind so much code that
its addresses do not fit. -/
theorem generateBlock_eq_plan_nested :
    (∃ s', nestedScope.generateBlock nestedScript true (({} : Generator).opened 0) = .ok () s' ∧
      s'.output.slots = (({} : Generator).opened 0).output.slots ++ nestedPlan.slots 5) ∧
    ∃ s, s.output.size = 0xffff ∧
      ∃ fault s', nestedScope.generateBlock nestedScript true s = .error fault s' := by
  constructor
  · exact ⟨_, rfl, ((Scope.generateBlock_eq_plan nestedScope nestedScript _).1 _ rfl).2 nestedPlan
      planned_nested |>.1⟩
  · have hlong : ∃ s : Generator, s.output.size = 0xffff ∧
        ∀ slot ∈ s.output.slots, Output.acceptable slot := by
      refine ⟨⟨⟨List.replicate 0xffff (.nat 0)⟩, []⟩, List.length_replicate, fun slot hslot => ?_⟩
      rw [List.eq_of_mem_replicate hslot]
      rfl
    obtain ⟨s, hsize, hs⟩ := hlong
    refine ⟨s, hsize, ((Scope.generateBlock_eq_plan nestedScope nestedScript s).2 nestedPlan
      planned_nested
      ?_ hs).mpr ⟨_, List.mem_append_left _ (List.mem_append_left _ List.mem_cons_self), ?_⟩⟩
    · simp [nestedPlan, Plan.OperandsFit, Draft.Fits, Emission.single, Operand.word_fits_iff]
    · omega

end SceneScript
