import SceneScript.Proofs.Disassembly

/-!
# Concatenation and relocation

The code of a script depends on where it stands only through the addresses in it.  So if two
scripts compile, what their concatenation compiles to can be put together from the two programs
alone: the first without its end, then the second with every address in it increased by what
stands before it.  Which bytes are addresses is read off the disassembly of the second program
and the table of address operands.

The only thing that can go wrong is an address that no longer fits in 16 bits, and that too can
be told from the second program.
-/

namespace SceneScript

/-! ## Moving a program

Increasing an address may carry from its low byte into its high byte, so the two bytes are read
as a word, increased and written back. -/

/-- Operands in which the word at an offset is increased. -/
def raiseWord (n : Nat) (operands : List UInt8) (offset : Nat) : List UInt8 :=
  match wordAt operands offset with
  | .ok address =>
    (operands.set offset (UInt8.ofNat ((address + n) / 256))).set (offset + 1)
      (UInt8.ofNat ((address + n) % 256))
  | .error _ => operands

/-- An instruction for a place further on: just the addresses among its operands are increased. -/
def Instruction.moved (n : Nat) (i : Instruction) : Instruction :=
  ⟨i.address + n, i.opcode, i.opcode.addressOffsets.foldl (raiseWord n) i.operands⟩

/-- A program for a place further on. -/
def relocate (n : Nat) (program : Program) : Program :=
  (disassemble program).instructions.flatMap fun i => (i.moved n).bytes

theorem Opcode.addressOffsets_eq_nil {op : Opcode} (htest : op ≠ .ifTrue) (hjump : op ≠ .jump) :
    op.addressOffsets = [] := by
  cases op
  case ifTrue => exact absurd rfl htest
  case jump => exact absurd rfl hjump
  all_goals rfl

theorem Instruction.moved_straight {i : Instruction} (h : i.opcode.addressOffsets = []) (n : Nat) :
    i.moved n = { i with address := i.address + n } := by
  rw [Instruction.moved, h]
  rfl

theorem Instruction.targets_straight {i : Instruction} (h : i.opcode.addressOffsets = []) :
    i.targets = .ok [] := by
  rw [Instruction.targets, Opcode.targets, h]
  rfl

theorem raiseWord_jump (n : Nat) (high low : UInt8) :
    raiseWord n [high, low] 0 =
      [UInt8.ofNat ((high.toNat * 256 + low.toNat + n) / 256),
        UInt8.ofNat ((high.toNat * 256 + low.toNat + n) % 256)] := rfl

theorem raiseWord_ifTrue (n : Nat) (flagHigh flagLow high low : UInt8) :
    raiseWord n [flagHigh, flagLow, high, low] 2 =
      [flagHigh, flagLow, UInt8.ofNat ((high.toNat * 256 + low.toNat + n) / 256),
        UInt8.ofNat ((high.toNat * 256 + low.toNat + n) % 256)] := rfl

theorem Draft.moved_jump {target n : Nat} (h : target + n ≤ 0xffff) (address : Nat) :
    (Draft.located ⟨.jump, Operand.word target⟩ address).moved n =
      Draft.located ⟨.jump, Operand.word (target + n)⟩ (address + n) := by
  obtain ⟨high, low, hbytes, hword⟩ := Operand.bytes_word (n := target) (by omega)
  have hraised := raiseWord_jump n high low
  rw [hword, ← Operand.filterMap_word h, ← hbytes] at hraised
  exact congrArg (Instruction.mk (address + n) .jump) hraised

theorem Draft.moved_ifTrue {flag target n : Nat} (hflag : flag ≤ 0xffff) (h : target + n ≤ 0xffff)
    (address : Nat) :
    (Draft.located ⟨.ifTrue, Operand.word flag ++ Operand.word target⟩ address).moved n =
      Draft.located ⟨.ifTrue, Operand.word flag ++ Operand.word (target + n)⟩ (address + n) := by
  obtain ⟨flagHigh, flagLow, hflagBytes, -⟩ := Operand.bytes_word hflag
  obtain ⟨high, low, hbytes, hword⟩ := Operand.bytes_word (n := target) (by omega)
  have hraised := raiseWord_ifTrue n flagHigh flagLow high low
  rw [hword] at hraised
  simp only [Instruction.moved, Draft.located, Draft.operandBytes, List.filterMap_append,
    hflagBytes, hbytes, Operand.filterMap_word h]
  exact congrArg (Instruction.mk (address + n) .ifTrue) hraised

/-! ## Moving a plan -/

theorem moved_locate {drafts : List Draft} (h : ∀ d ∈ drafts, d.opcode.addressOffsets = [])
    (n address : Nat) :
    (locate address drafts).map (Instruction.moved n) = locate (address + n) drafts := by
  induction drafts generalizing address with
  | nil => rfl
  | cons d rest ih =>
      obtain ⟨hd, hrest⟩ := List.forall_mem_cons.mp h
      rw [locate, locate, List.map_cons, ih hrest, Instruction.moved_straight hd,
        Nat.add_right_comm]
      rfl

theorem Scope.addressOffsets_of_emit {scope : Scope} {kind : EventKind} {args : Fields}
    {e : Emission} (h : scope.emit kind args = .ok e) :
    ∀ d ∈ e.drafts, d.opcode.addressOffsets = [] := by
  intro d hd
  obtain ⟨htest, hjump⟩ := Scope.not_branch_of_emit h hd
  exact Opcode.addressOffsets_eq_nil htest hjump

namespace Plan

theorem addresses_add (plan : Plan) (base n : Nat) :
    plan.addresses (base + n) = (plan.addresses base).map (· + n) := by
  induction plan generalizing base with
  | done => rfl
  | straight emission next ih => rw [addresses, addresses, Nat.add_right_comm, ih]
  | test flag whenSet whenClear next ihSet ihClear ih =>
      have hclear : base + n + 5 = base + 5 + n := by omega
      have hset : base + n + 8 + whenClear.size = base + 8 + whenClear.size + n := by omega
      have hnext : base + 8 + whenClear.size + n + whenSet.size =
          base + 8 + whenClear.size + whenSet.size + n :=
        Nat.add_right_comm _ _ _
      simp only [addresses, hclear, hset, hnext, ihSet, ihClear, ih, List.map_append, List.map_cons]

/-- A plan that fits at one base fits further on just when the addresses still do. -/
theorem fits_add {plan : Plan} {base : Nat} (h : ∀ d ∈ plan.drafts base, d.Fits) (n : Nat) :
    (∀ d ∈ plan.drafts (base + n), d.Fits) ↔ ∀ a ∈ plan.addresses base, a + n ≤ 0xffff := by
  rw [fits_iff, addresses_add, List.forall_mem_map]
  exact and_iff_right (fits_iff.mp h).1

end Plan

/-- The code of a plan further on is the moved code of the plan. -/
theorem Planned.moved_located {scope : Scope} {script : Script} {plan : Plan}
    (h : Planned scope script plan) {base n : Nat} (hfits : ∀ d ∈ plan.drafts base, d.Fits)
    (hmoved : ∀ a ∈ plan.addresses base, a + n ≤ 0xffff) :
    (plan.located base).map (Instruction.moved n) = plan.located (base + n) := by
  induction h generalizing base with
  | nil => rfl
  | @leaf event rest emission next _ hemit _ ih =>
      obtain ⟨-, hnext⟩ := Plan.fits_straight.mp hfits
      rw [Plan.located_straight, Plan.located_straight, List.map_append, ih hnext hmoved,
        moved_locate (Scope.addressOffsets_of_emit hemit), Nat.add_right_comm]
  | @test event rest whenSet whenClear flag set clear next _ _ _ _ _ ihSet ihClear ih =>
      obtain ⟨⟨hflag, -, -⟩, hclear, hset, hnext⟩ := Plan.fits_test.mp hfits
      simp only [Plan.addresses, List.forall_mem_append, List.forall_mem_cons] at hmoved
      obtain ⟨⟨⟨hsetAt, hendAt, hclearMoved⟩, hsetMoved⟩, hnextMoved⟩ := hmoved
      have hclearBase : base + n + 5 = base + 5 + n := by omega
      have hjumpBase : base + n + 5 + clear.size = base + 5 + clear.size + n := by omega
      have hsetBase : base + n + 8 + clear.size = base + 8 + clear.size + n := by omega
      have hnextBase : base + n + 8 + clear.size + set.size =
          base + 8 + clear.size + set.size + n := by omega
      rw [Plan.located_test, Plan.located_test, hnextBase, hsetBase, hjumpBase, hclearBase]
      simp only [List.map_append, List.map_cons, ihClear hclear hclearMoved, ihSet hset hsetMoved,
        ih hnext hnextMoved, Draft.moved_ifTrue hflag hsetAt, Draft.moved_jump hendAt]

/-! ## Targets

The addresses of a plan are what its tests and jumps aim at, so they can be found in the
disassembly. -/

/-- The address is one of those that the instruction may jump to. -/
def Instruction.AimsAt (i : Instruction) (address : Nat) : Prop :=
  ∃ targets, i.targets = .ok targets ∧ address ∈ targets

theorem Instruction.aimsAt_iff {i : Instruction} {target address : Nat}
    (h : i.targets = .ok [target]) : i.AimsAt address ↔ address = target := by
  constructor
  · rintro ⟨targets, htargets, hmem⟩
    rw [h] at htargets
    cases htargets
    exact List.mem_singleton.mp hmem
  · rintro rfl
    exact ⟨_, h, List.mem_singleton.mpr rfl⟩

theorem Instruction.not_aimsAt {i : Instruction} (h : i.opcode.addressOffsets = [])
    (address : Nat) : ¬ i.AimsAt address := by
  rintro ⟨targets, htargets, hmem⟩
  rw [Instruction.targets_straight h] at htargets
  cases htargets
  cases hmem

theorem not_aimsAt_of_mem_locate {drafts : List Draft}
    (h : ∀ d ∈ drafts, d.opcode.addressOffsets = [])
    {address : Nat} {i : Instruction} (hi : i ∈ locate address drafts) (target : Nat) :
    ¬ i.AimsAt target := by
  obtain ⟨d, hd, hop⟩ := opcode_of_mem_locate hi
  exact Instruction.not_aimsAt (hop ▸ h d hd) target

theorem Planned.mem_addresses_iff {scope : Scope} {script : Script} {plan : Plan}
    (h : Planned scope script plan) {base : Nat} (hfits : ∀ d ∈ plan.drafts base, d.Fits)
    (a : Nat) : a ∈ plan.addresses base ↔ ∃ i ∈ plan.located base, i.AimsAt a := by
  induction h generalizing base with
  | nil => simp [Plan.addresses, Plan.located, Plan.drafts, locate]
  | @leaf event rest emission next _ hemit _ ih =>
      obtain ⟨-, hnext⟩ := Plan.fits_straight.mp hfits
      have hnone : ¬ ∃ i ∈ locate base emission.drafts, i.AimsAt a := by
        rintro ⟨i, hi, haims⟩
        exact not_aimsAt_of_mem_locate (Scope.addressOffsets_of_emit hemit) hi a haims
      rw [Plan.addresses, ih hnext, Plan.located_straight]
      simp only [List.mem_append, or_and_right, exists_or]
      exact (or_iff_right hnone).symm
  | @test event rest whenSet whenClear flag set clear next _ _ _ _ _ ihSet ihClear ih =>
      obtain ⟨⟨hflag, hsetAt, hendAt⟩, hclear, hset, hnext⟩ := Plan.fits_test.mp hfits
      have htest := @Instruction.aimsAt_iff _ _ a (Draft.targets_ifTrue hflag hsetAt base)
      have hjump := @Instruction.aimsAt_iff _ _ a
        (Draft.targets_jump hendAt (base + 5 + clear.size))
      simp only [Plan.addresses, Plan.located_test, List.mem_append, List.mem_cons,
        ihClear hclear, ihSet hset, ih hnext, or_and_right, exists_or, exists_eq_left, htest, hjump]
      constructor
      · rintro (((h | h | h) | h) | h)
        · exact .inl (.inl (.inl h))
        · exact .inl (.inr (.inl h))
        · exact .inl (.inl (.inr h))
        · exact .inl (.inr (.inr h))
        · exact .inr h
      · rintro (((h | h) | h | h) | h)
        · exact .inl (.inl (.inl h))
        · exact .inl (.inl (.inr (.inr h)))
        · exact .inl (.inl (.inr (.inl h)))
        · exact .inl (.inr h)
        · exact .inr h

/-! ## Plans one after the other -/

/-- A plan followed by another. -/
def Plan.append : Plan → Plan → Plan
  | .done, after => after
  | .straight emission next, after => .straight emission (next.append after)
  | .test flag whenSet whenClear next, after => .test flag whenSet whenClear (next.append after)

namespace Plan

theorem drafts_append (plan after : Plan) (base : Nat) :
    (plan.append after).drafts base = plan.drafts base ++ after.drafts (base + plan.size) := by
  induction plan generalizing base with
  | done => rfl
  | straight emission next ih =>
      rw [append, drafts, drafts, size, ih, List.append_assoc, Nat.add_assoc]
  | test flag whenSet whenClear next _ _ ih =>
      have hnext : base + 8 + whenClear.size + whenSet.size + next.size =
          base + (8 + whenClear.size + whenSet.size + next.size) := by omega
      simp only [append, drafts, size, ih, hnext, List.append_assoc, List.cons_append]

theorem warnings_append (plan after : Plan) :
    (plan.append after).warnings = plan.warnings ++ after.warnings := by
  induction plan with
  | done => rfl
  | straight emission next ih => rw [append, warnings, warnings, ih, List.append_assoc]
  | test flag whenSet whenClear next _ _ ih => simp only [append, warnings, ih, List.append_assoc]

end Plan

theorem Planned.append {scope : Scope} {script others : Script} {plan after : Plan}
    (h : Planned scope script plan) (hafter : Planned scope others after) :
    Planned scope (script ++ others) (plan.append after) := by
  induction h with
  | nil => exact hafter
  | leaf hleaf hemit _ ih => exact .leaf hleaf hemit ih
  | test htest hflag hset hclear _ _ _ ih => exact .test htest hflag hset hclear ih

/-! ## Programs one after the other -/

theorem bytes_locate (drafts : List Draft) (address : Nat) :
    (locate address drafts).flatMap Instruction.bytes =
      (drafts.flatMap Draft.slots).filterMap Value.byte? := by
  induction drafts generalizing address with
  | nil => rfl
  | cons d rest ih =>
      rw [locate, List.flatMap_cons, List.flatMap_cons, List.filterMap_append, ih,
        d.bytes_slots address]

/-- The bytes of a plan whose code starts at an address. -/
def Plan.bytes (base : Nat) (plan : Plan) : List UInt8 := (plan.slots base).filterMap Value.byte?

namespace Plan

theorem bytes_append (plan after : Plan) (base : Nat) :
    (plan.append after).bytes base = plan.bytes base ++ after.bytes (base + plan.size) := by
  simp only [bytes, slots, drafts_append, List.flatMap_append, List.filterMap_append]

theorem bytes_whole (plan : Plan) :
    (plan.whole.flatMap Draft.slots).filterMap Value.byte? =
      plan.bytes 0 ++ [Opcode.halt.byte] := by
  rw [whole, List.flatMap_append, List.filterMap_append]
  rfl

theorem length_bytes {plan : Plan} {base : Nat} (h : ∀ d ∈ plan.drafts base, d.Fits) :
    (plan.bytes base).length = plan.size := by
  have hsome := congrArg List.length (Draft.map_byte?_eq (Draft.fits_flatMap.mpr h))
  rw [List.length_map, List.length_map] at hsome
  rw [← plan.length_slots base]
  exact hsome.symm

end Plan

/-- A program moved to a place where its addresses fit is the code of the plan there, with the
end. -/
theorem Assembled.relocate_eq {scope : Scope} {script : Script} {program : Program} {plan : Plan}
    (h : Assembled scope script program plan) {n : Nat}
      (hmoved : ∀ a ∈ plan.addresses 0, a + n ≤ 0xffff) :
    relocate n program = plan.bytes n ++ [Opcode.halt.byte] := by
  have hlocated := h.planned.moved_located h.fits_drafts hmoved
  rw [Nat.zero_add] at hlocated
  rw [relocate, ← List.flatMap_map (Instruction.moved n) Instruction.bytes, h.instructions_eq,
    List.map_append, hlocated, List.flatMap_append, Plan.located, bytes_locate]
  rfl

theorem Assembled.mem_addresses_iff {scope : Scope} {script : Script}
    {program : Program} {plan : Plan} (h : Assembled scope script program plan) (a : Nat) :
    a ∈ plan.addresses 0 ↔ ∃ i ∈ (disassemble program).instructions, i.AimsAt a := by
  have hlast : ¬ (⟨plan.size, .halt, []⟩ : Instruction).AimsAt a := Instruction.not_aimsAt rfl a
  rw [h.planned.mem_addresses_iff h.fits_drafts, h.instructions_eq]
  constructor
  · rintro ⟨i, hi, haims⟩
    exact ⟨i, List.mem_append_left _ hi, haims⟩
  · rintro ⟨i, hi, haims⟩
    rcases List.mem_append.mp hi with hi | hi
    · exact ⟨i, hi, haims⟩
    · obtain rfl := List.mem_singleton.mp hi
      exact absurd haims hlast

/-- **Concatenation is relocation.**  Let two scripts compile in the same scope.  Their
concatenation compiles just when every target in the second program still fits in 16 bits after
the first program without its end has been put before it; the result is then the one followed by
the other, moved, and the warnings are those of the one followed by those of the other. -/
theorem Scope.generate_append {scope : Scope} {script others : Script} {first second : Program}
    {state state' : Generator} (h : scope.generate script {} = .ok first state)
    (h' : scope.generate others {} = .ok second state') :
    ((∃ program final, scope.generate (script ++ others) {} = .ok program final) ↔
      ∀ i ∈ (disassemble second).instructions, ∀ a, i.AimsAt a → a + (first.length - 1) ≤ 0xffff) ∧
    ∀ program final, scope.generate (script ++ others) {} = .ok program final →
      program = first.take (first.length - 1) ++ relocate (first.length - 1) second ∧
      final.warnings = state.warnings ++ state'.warnings := by
  obtain ⟨plan, hplan, hfits, rfl, rfl⟩ := Scope.generate_ok_iff.mp h
  obtain ⟨after, hafter, -⟩ := Scope.assembled_of_generate h'
  obtain ⟨other, hother, -, rfl, -⟩ := Scope.generate_ok_iff.mp h'
  obtain rfl := hafter.planned.unique hother
  rw [plan.bytes_whole]
  have hsize : (plan.bytes 0 ++ [Opcode.halt.byte]).length - 1 = plan.size := by
    rw [List.length_append, Plan.length_bytes hfits]
    rfl
  have htake : (plan.bytes 0 ++ [Opcode.halt.byte]).take plan.size = plan.bytes 0 :=
    List.take_left' (Plan.length_bytes hfits)
  rw [hsize, htake]
  -- the drafts of the joined plan are those of the first and those of the second, further on
  have hjoined : (∀ d ∈ (plan.append after).drafts 0, d.Fits) ↔
      ∀ a ∈ after.addresses 0, a + plan.size ≤ 0xffff := by
    rw [plan.drafts_append, List.forall_mem_append, ← Plan.fits_add hafter.fits_drafts]
    exact and_iff_right hfits
  have htargets : (∀ a ∈ after.addresses 0, a + plan.size ≤ 0xffff) ↔
      ∀ i ∈ (disassemble second).instructions, ∀ a, i.AimsAt a → a + plan.size ≤ 0xffff := by
    simp only [hafter.mem_addresses_iff]
    constructor
    · intro hall i hi a haims
      exact hall a ⟨i, hi, haims⟩
    · rintro hall a ⟨i, hi, haims⟩
      exact hall i hi a haims
  have hplanned := hplan.append hafter.planned
  constructor
  · rw [← htargets, ← hjoined]
    constructor
    · rintro ⟨program, final, hrun⟩
      obtain ⟨joined, hjoin, hfit, -, -⟩ := Scope.generate_ok_iff.mp hrun
      rw [hplanned.unique hjoin]
      exact hfit
    · intro hfit
      exact ⟨_, _, Scope.generate_ok_iff.mpr ⟨_, hplanned, hfit, rfl, rfl⟩⟩
  · intro program final hrun
    obtain ⟨joined, hjoin, hfit, rfl, rfl⟩ := Scope.generate_ok_iff.mp hrun
    obtain rfl := hplanned.unique hjoin
    refine ⟨?_, plan.warnings_append after⟩
    rw [Plan.bytes_whole, Plan.bytes_append, Nat.zero_add, List.append_assoc,
      hafter.relocate_eq (hjoined.mp hfit)]

/-- The nested script twice: its second half is the program of the first, moved behind it. -/
theorem generate_append_nested :
    ∃ program state, nestedScope.generate nestedScript {} = .ok program state ∧
      ∃ joined final, nestedScope.generate (nestedScript ++ nestedScript) {} = .ok joined final ∧
        joined = program.take (program.length - 1) ++ relocate (program.length - 1) program := by
  obtain ⟨program, state, h⟩ := generate_nested
  have hfits : ∀ d ∈ (nestedPlan.append nestedPlan).drafts 0, d.Fits := by
    rw [Plan.fits_iff]
    constructor
    · simp [nestedPlan, Plan.append, Plan.OperandsFit, Draft.Fits, Emission.single,
        Operand.word_fits_iff]
    · decide
  have hrun := Scope.generate_ok_iff.mpr ⟨_, planned_nested.append planned_nested, hfits, rfl, rfl⟩
  exact ⟨program, state, h, _, _, hrun, ((Scope.generate_append h h).2 _ _ hrun).1⟩

end SceneScript
