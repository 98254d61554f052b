import SceneScript.Bytecode.Listing
import SceneScript.Proofs.Generation

/-!
# Disassembly reads back what was emitted

The recipes of the generator and the operand counts of the disassembler are two tables.  They
agree: the program of a script disassembles without a failure into the drafts of its plan, in
the order of the code, each at the address where the one before it ends.  A draft with a wrong
number of operands would be read as an instruction that swallows its successors, so everything
rests on `Draft.Complete`.

The main statement also counts: one `IF_TRUE` and one `JUMP` for each test of the script.
-/

namespace SceneScript

/-! ## One instruction at a time -/

/-- An instruction that is followed by anything is read back, and reading goes on behind it. -/
theorem disassembleFrom_bytes {i : Instruction} (arity : i.operands.length = i.opcode.operandCount)
    (rest : List UInt8) :
    disassembleFrom i.address (i.bytes ++ rest) =
      ⟨i :: (disassembleFrom (i.address + i.opcode.size) rest).instructions,
        (disassembleFrom (i.address + i.opcode.size) rest).failure⟩ := by
  have hlong : ¬ (i.operands ++ rest).length < i.opcode.operandCount := by
    rw [List.length_append]
    omega
  rw [Instruction.bytes, List.cons_append, disassembleFrom]
  simp only [Opcode.ofByte?_byte, if_neg hlong]
  rw [List.take_left' arity, List.drop_left' arity]

/-- Every instruction that is read has the operands of its opcode, whatever the bytes are. -/
theorem arity_of_mem_disassembleFrom {address : Nat} {bytes : List UInt8} {i : Instruction}
    (h : i ∈ (disassembleFrom address bytes).instructions) :
    i.operands.length = i.opcode.operandCount := by
  fun_induction disassembleFrom address bytes with
  | case1 => exact absurd h List.not_mem_nil
  | case2 => exact absurd h List.not_mem_nil
  | case3 => exact absurd h List.not_mem_nil
  | case4 address byte rest opcode _ hlong after ih =>
      rcases List.mem_cons.mp h with rfl | h
      · simp only [List.length_take]
        omega
      · exact ih h

theorem address_le_of_mem_disassembleFrom {address : Nat} {bytes : List UInt8} {i : Instruction}
    (h : i ∈ (disassembleFrom address bytes).instructions) : address ≤ i.address := by
  fun_induction disassembleFrom address bytes with
  | case1 => exact absurd h List.not_mem_nil
  | case2 => exact absurd h List.not_mem_nil
  | case3 => exact absurd h List.not_mem_nil
  | case4 address byte rest opcode _ _ after ih =>
      rcases List.mem_cons.mp h with rfl | h
      · exact Nat.le_refl _
      · exact Nat.le_trans (Nat.le_add_right _ _) (ih h)

/-- There is at most one instruction at an address. -/
theorem eq_of_mem_disassembleFrom {address : Nat} {bytes : List UInt8} {i j : Instruction}
    (hi : i ∈ (disassembleFrom address bytes).instructions)
    (hj : j ∈ (disassembleFrom address bytes).instructions) (h : i.address = j.address) :
    i = j := by
  fun_induction disassembleFrom address bytes with
  | case1 => exact absurd hi List.not_mem_nil
  | case2 => exact absurd hi List.not_mem_nil
  | case3 => exact absurd hi List.not_mem_nil
  | case4 address byte rest opcode _ _ after ih =>
      have hlater : ∀ k ∈ after.instructions, address < k.address := fun k hk =>
        Nat.lt_of_lt_of_le (by simp only [Opcode.size]; omega)
          (address_le_of_mem_disassembleFrom hk)
      rcases List.mem_cons.mp hi with rfl | hi <;> rcases List.mem_cons.mp hj with rfl | hj
      · rfl
      · exact absurd h (Nat.ne_of_lt (hlater j hj))
      · exact absurd h.symm (Nat.ne_of_lt (hlater i hi))
      · exact ih hi hj

/-! ## Drafts in place -/

namespace Draft

/-- The operands of a draft as bytes. -/
def operandBytes (d : Draft) : List UInt8 := d.operands.filterMap Value.byte?

/-- A draft as an instruction at an address. -/
def located (d : Draft) (address : Nat) : Instruction := ⟨address, d.opcode, d.operandBytes⟩

theorem map_byte?_eq {values : List Value} (h : ∀ v ∈ values, v.byte?.isSome) :
    values.map Value.byte? = (values.filterMap Value.byte?).map some := by
  induction values with
  | nil => rfl
  | cons v rest ih =>
      obtain ⟨hv, hrest⟩ := List.forall_mem_cons.mp h
      obtain ⟨b, hb⟩ := Option.isSome_iff_exists.mp hv
      rw [List.map_cons, List.filterMap_cons_some hb, List.map_cons, hb, ih hrest]

theorem length_operandBytes {d : Draft} (h : d.Fits) :
    d.operandBytes.length = d.operands.length := by
  have := congrArg List.length (map_byte?_eq h)
  simpa only [List.length_map, operandBytes] using this.symm

theorem size_located {d : Draft} (h : d.Fits) (address : Nat) :
    (d.located address).size = d.slots.length := by
  rw [Instruction.size, slots, List.length_cons, Nat.add_comm]
  exact congrArg (· + 1) (length_operandBytes h)

/-- The slots of a draft, read as bytes, are the bytes of its instruction. -/
theorem bytes_slots (d : Draft) (address : Nat) :
    d.slots.filterMap Value.byte? = (d.located address).bytes := by
  have hbyte : (Value.nat d.opcode.byte.toNat).byte? = some d.opcode.byte := by
    have := d.opcode.byte.toNat_lt
    rw [Value.byte?_int, if_pos (by omega), UInt8.ofNat_toNat]
  rw [slots, List.filterMap_cons_some hbyte]
  rfl

end Draft

/-- Drafts as instructions one after the other from an address on. -/
def locate (address : Nat) : List Draft → List Instruction
  | [] => []
  | d :: rest => d.located address :: locate (address + d.slots.length) rest

theorem locate_append (address : Nat) (drafts others : List Draft) :
    locate address (drafts ++ others) =
      locate address drafts ++ locate (address + (drafts.flatMap Draft.slots).length) others := by
  induction drafts generalizing address with
  | nil => rfl
  | cons d rest ih =>
      simp only [List.cons_append, locate, ih, List.flatMap_cons, List.length_append, Nat.add_assoc]

/-- Drafts that are complete and fit are read back from their bytes. -/
theorem disassembleFrom_locate {drafts : List Draft} (hcomplete : ∀ d ∈ drafts, d.Complete)
    (hfits : ∀ d ∈ drafts, d.Fits) (address : Nat) :
    disassembleFrom address ((drafts.flatMap Draft.slots).filterMap Value.byte?) =
      ⟨locate address drafts, none⟩ := by
  induction drafts generalizing address with
  | nil =>
      rw [List.flatMap_nil, List.filterMap_nil, disassembleFrom]
      rfl
  | cons d rest ih =>
      obtain ⟨hd, hrest⟩ := List.forall_mem_cons.mp hcomplete
      obtain ⟨hfit, hfits⟩ := List.forall_mem_cons.mp hfits
      have harity : (d.located address).operands.length = (d.located address).opcode.operandCount :=
        (Draft.length_operandBytes hfit).trans hd.arity
      have hsize : d.opcode.size = d.slots.length := by
        rw [Opcode.size, ← hd.arity, Draft.slots, List.length_cons, Nat.add_comm]
      have hread := disassembleFrom_bytes harity ((rest.flatMap Draft.slots).filterMap Value.byte?)
      rw [List.flatMap_cons, List.filterMap_append, d.bytes_slots address]
      refine hread.trans ?_
      rw [show (d.located address).address + (d.located address).opcode.size =
        address + d.slots.length from
        congrArg (address + ·) hsize, ih hrest hfits]
      rfl

/-! ## Plans in place -/

namespace Plan

/-- The instructions of a plan whose code starts at an address. -/
def located (plan : Plan) (base : Nat) : List Instruction := locate base (plan.drafts base)

theorem located_straight (emission : Emission) (next : Plan) (base : Nat) :
    (straight emission next).located base =
      locate base emission.drafts ++ next.located (base + emission.slots.length) :=
  locate_append base emission.drafts _

theorem located_test (flag : Nat) (whenSet whenClear next : Plan) (base : Nat) :
    (test flag whenSet whenClear next).located base =
      Draft.located ⟨.ifTrue, Operand.word flag ++ Operand.word (base + 8 + whenClear.size)⟩ base ::
        whenClear.located (base + 5) ++
      Draft.located ⟨.jump, Operand.word (base + 8 + whenClear.size + whenSet.size)⟩
          (base + 5 + whenClear.size) ::
        whenSet.located (base + 8 + whenClear.size) ++
      next.located (base + 8 + whenClear.size + whenSet.size) := by
  have hclear : ((whenClear.drafts (base + 5)).flatMap Draft.slots).length = whenClear.size :=
    whenClear.length_slots _
  have hset : ((whenSet.drafts (base + 8 + whenClear.size)).flatMap Draft.slots).length =
      whenSet.size :=
    whenSet.length_slots _
  have hturn : base + 5 + whenClear.size + 3 = base + 8 + whenClear.size := by omega
  simp only [located, drafts, List.cons_append, List.append_assoc, locate,
    locate_append, hclear, hset, Draft.slots, Operand.word, List.length_cons, List.length_nil,
    List.length_append, Nat.zero_add, Nat.reduceAdd, hturn]

/-- The instructions of a whole script: those of its plan, and the end behind them. -/
theorem locate_whole (plan : Plan) :
    locate 0 plan.whole = plan.located 0 ++ [⟨plan.size, .halt, []⟩] := by
  have hsize : ((plan.drafts 0).flatMap Draft.slots).length = plan.size := plan.length_slots 0
  rw [whole, locate_append, hsize, Nat.zero_add]
  rfl

end Plan

/-! ## Addresses -/

/-- `Tiles start instructions stop`: the instructions follow one another without a gap, the
first at `start` and the last up to `stop`. -/
def Tiles : Nat → List Instruction → Nat → Prop
  | start, [], stop => start = stop
  | start, i :: rest, stop => i.address = start ∧ Tiles (start + i.size) rest stop

theorem tiles_locate {drafts : List Draft} (hfits : ∀ d ∈ drafts, d.Fits) (address : Nat) :
    Tiles address (locate address drafts) (address + (drafts.flatMap Draft.slots).length) := by
  induction drafts generalizing address with
  | nil => rfl
  | cons d rest ih =>
      obtain ⟨hfit, hfits⟩ := List.forall_mem_cons.mp hfits
      refine ⟨rfl, ?_⟩
      rw [Draft.size_located hfit, List.flatMap_cons, List.length_append, ← Nat.add_assoc]
      exact ih hfits _

/-! ## Listings -/

theorem Opcode.targets_jump (high low : UInt8) :
    Opcode.jump.targets [high, low] = .ok [high.toNat * 256 + low.toNat] := rfl

theorem Opcode.targets_ifTrue (flagHigh flagLow high low : UInt8) :
    Opcode.ifTrue.targets [flagHigh, flagLow, high, low] = .ok [high.toNat * 256 + low.toNat] := rfl

theorem Draft.targets_jump {target : Nat} (h : target ≤ 0xffff) (address : Nat) :
    (Draft.located ⟨.jump, Operand.word target⟩ address).targets = .ok [target] := by
  obtain ⟨high, low, hbytes, hword⟩ := Operand.bytes_word h
  rw [Instruction.targets, Draft.located, Draft.operandBytes, hbytes, Opcode.targets_jump, hword]

theorem Draft.targets_ifTrue {flag target : Nat} (hflag : flag ≤ 0xffff) (h : target ≤ 0xffff)
    (address : Nat) :
    (Draft.located ⟨.ifTrue, Operand.word flag ++ Operand.word target⟩ address).targets =
      .ok [target] := by
  obtain ⟨flagHigh, flagLow, hflagBytes, -⟩ := Operand.bytes_word hflag
  obtain ⟨high, low, hbytes, hword⟩ := Operand.bytes_word h
  rw [Instruction.targets, Draft.located, Draft.operandBytes, List.filterMap_append,
    hflagBytes, hbytes]
  exact (Opcode.targets_ifTrue flagHigh flagLow high low).trans (by rw [hword])

theorem Instruction.targets_ok {i : Instruction}
    (arity : i.operands.length = i.opcode.operandCount) : ∃ targets, i.targets = .ok targets := by
  obtain ⟨address, opcode, operands⟩ := i
  cases opcode
  case jump =>
    match operands, arity with
    | [high, low], _ => exact ⟨_, Opcode.targets_jump high low⟩
  case ifTrue =>
    match operands, arity with
    | [flagHigh, flagLow, high, low], _ =>
        exact ⟨_, Opcode.targets_ifTrue flagHigh flagLow high low⟩
  all_goals exact ⟨[], rfl⟩

theorem Instruction.line_ok {i : Instruction} (arity : i.operands.length = i.opcode.operandCount) :
    ∃ text, i.line = .ok text := by
  obtain ⟨targets, htargets⟩ := Instruction.targets_ok arity
  unfold Instruction.line
  rw [htargets]
  cases targets with
  | nil => exact ⟨_, rfl⟩
  | cons target rest => exact ⟨_, rfl⟩

theorem mapM_line_ok {instructions : List Instruction}
    (arity : ∀ i ∈ instructions, i.operands.length = i.opcode.operandCount) :
    ∃ lines, instructions.mapM Instruction.line = .ok lines := by
  induction instructions with
  | nil => exact ⟨[], rfl⟩
  | cons i rest ih =>
      obtain ⟨hi, hrest⟩ := List.forall_mem_cons.mp arity
      obtain ⟨text, htext⟩ := Instruction.line_ok hi
      obtain ⟨lines, hlines⟩ := ih hrest
      refine ⟨text :: lines, ?_⟩
      rw [List.mapM_cons, htext, hlines]
      rfl

theorem listing_of_lines {program : Program} {lines : List String}
    (h : (disassemble program).failure = none)
    (hlines : (disassemble program).instructions.mapM Instruction.line = .ok lines) :
    listing program = .ok ("\n".intercalate lines) := by
  simp only [listing, listingLines, h]
  rw [hlines]
  rfl

/-- A program that disassembles without a failure has a listing. -/
theorem listing_ok {program : Program} (h : (disassemble program).failure = none) :
    ∃ text, listing program = .ok text := by
  obtain ⟨lines, hlines⟩ := mapM_line_ok fun _ hi => arity_of_mem_disassembleFrom hi
  exact ⟨_, listing_of_lines h hlines⟩

/-! ## Counting tests -/

mutual
/-- The number of tests that are laid out for an event.  Only the bodies of a test are looked at. -/
def Event.tests : Event → Nat
  | .conditional .ifTrue _ whenTrue whenFalse | .conditional .ifFalse _ whenTrue whenFalse =>
    1 + (testsIn whenTrue + testsIn whenFalse)
  | .plain .ifTrue _ | .plain .ifFalse _ => 1
  | .conditional _ _ _ _ | .plain _ _ => 0

/-- The number of tests that are laid out for a script. -/
def Event.testsIn : List Event → Nat
  | [] => 0
  | event :: rest => tests event + testsIn rest
end

theorem Event.tests_leaf {event : Event} (h : event.branches? = none) : event.tests = 0 := by
  cases event with
  | plain kind args =>
      cases kind
      case ifTrue | ifFalse => cases h
      all_goals rfl
  | conditional kind args whenTrue whenFalse =>
      cases kind
      case ifTrue | ifFalse => cases h
      all_goals rfl

theorem Event.tests_test {event : Event} {whenSet whenClear : Script}
    (h : event.branches? = some (whenSet, whenClear)) :
    event.tests = 1 + (testsIn whenSet + testsIn whenClear) := by
  unfold Event.branches? at h
  split at h
  all_goals cases h
  all_goals simp only [Event.tests, Event.testsIn]
  omega

/-- Both opcodes that jump occur once for each test. -/
theorem Planned.count_branches {scope : Scope} {script : Script} {plan : Plan}
    (h : Planned scope script plan) (base : Nat) {opcode : Opcode}
    (hop : opcode = .ifTrue ∨ opcode = .jump) :
    ((plan.drafts base).map Draft.opcode).count opcode = Event.testsIn script := by
  induction h generalizing base with
  | nil => rfl
  | @leaf event rest emission next hleaf hemit _ ih =>
      have hnone : (emission.drafts.map Draft.opcode).count opcode = 0 := by
        rw [List.count_eq_zero]
        intro hmem
        obtain ⟨d, hd, rfl⟩ := List.mem_map.mp hmem
        obtain ⟨htest, hjump⟩ := Scope.not_branch_of_emit hemit hd
        exact hop.elim htest hjump
      rw [Plan.drafts, List.map_append, List.count_append, hnone, ih, Event.testsIn,
        Event.tests_leaf hleaf]
  | @test event rest whenSet whenClear flag set clear next htest _ _ _ _ ihSet ihClear ih =>
      have hone : [Opcode.ifTrue].count opcode + [Opcode.jump].count opcode = 1 := by
        rcases hop with rfl | rfl <;> rfl
      simp only [List.count_singleton] at hone
      simp only [Plan.drafts, List.map_append, List.map_cons, List.count_append,
        List.count_cons, ihSet, ihClear, ih, Event.testsIn, Event.tests_test htest]
      omega

/-! ## Whole programs -/

theorem map_opcode_locate (address : Nat) (drafts : List Draft) :
    (locate address drafts).map Instruction.opcode = drafts.map Draft.opcode := by
  induction drafts generalizing address with
  | nil => rfl
  | cons d rest ih =>
      rw [locate, List.map_cons, List.map_cons, ih]
      rfl

theorem opcode_of_mem_locate {address : Nat} {drafts : List Draft} {i : Instruction}
    (h : i ∈ locate address drafts) : ∃ d ∈ drafts, d.opcode = i.opcode := by
  have hop : i.opcode ∈ (locate address drafts).map Instruction.opcode := List.mem_map_of_mem h
  rw [map_opcode_locate] at hop
  exact List.mem_map.mp hop

theorem map_operands_locate {drafts : List Draft} (hfits : ∀ d ∈ drafts, d.Fits) (address : Nat) :
    (locate address drafts).map (fun i => i.operands.map some) =
      drafts.map fun d => d.operands.map Value.byte? := by
  induction drafts generalizing address with
  | nil => rfl
  | cons d rest ih =>
      obtain ⟨hfit, hfits⟩ := List.forall_mem_cons.mp hfits
      rw [locate, List.map_cons, List.map_cons, ih hfits, Draft.map_byte?_eq hfit]
      rfl

theorem Planned.complete_whole {scope : Scope} {script : Script} {plan : Plan}
    (h : Planned scope script plan) : ∀ d ∈ plan.whole, d.Complete := by
  rw [Plan.whole, List.forall_mem_append, List.forall_mem_singleton]
  exact ⟨h.complete 0, rfl, fun _ hv => absurd hv List.not_mem_nil⟩

theorem Plan.length_whole (plan : Plan) :
    (plan.whole.flatMap Draft.slots).length = plan.size + 1 := by
  have hplan : ((plan.drafts 0).flatMap Draft.slots).length = plan.size := plan.length_slots 0
  rw [Plan.whole, List.flatMap_append, List.length_append, hplan]
  rfl

/-- `Assembled scope script program plan`: the program is the code of the script's plan with the
end behind it, and disassembles into just that. -/
structure Assembled (scope : Scope) (script : Script) (program : Program) (plan : Plan) : Prop where
  planned : Planned scope script plan
  fits : ∀ d ∈ plan.whole, d.Fits
  length : program.length = plan.size + 1
  disassembly : disassemble program = ⟨locate 0 plan.whole, none⟩

theorem Scope.assembled_of_generate {scope : Scope} {script : Script} {program : Program}
    {state : Generator} (h : scope.generate script {} = .ok program state) :
    ∃ plan, Assembled scope script program plan ∧
      state.output.slots = plan.whole.flatMap Draft.slots := by
  obtain ⟨plan, hplan, hslots, hfits, hprogram⟩ := Scope.generate_ok h
  rw [hslots] at hprogram
  have hlength : program.length = plan.size + 1 := by
    have := congrArg List.length (Draft.map_byte?_eq (Draft.fits_flatMap.mpr hfits))
    rw [List.length_map, List.length_map, plan.length_whole] at this
    rw [hprogram, this]
  have hread := disassembleFrom_locate hplan.complete_whole hfits 0
  rw [← hprogram] at hread
  exact ⟨plan, ⟨hplan, hfits, hlength, hread⟩, hslots⟩

namespace Assembled

variable {scope : Scope} {script : Script} {program : Program} {plan : Plan}

theorem instructions_eq (h : Assembled scope script program plan) :
    (disassemble program).instructions = plan.located 0 ++ [⟨plan.size, .halt, []⟩] := by
  rw [h.disassembly, plan.locate_whole]

theorem fits_drafts (h : Assembled scope script program plan) : ∀ d ∈ plan.drafts 0, d.Fits :=
  fun d hd => h.fits d (List.mem_append_left _ hd)

theorem count_branches (h : Assembled scope script program plan) {opcode : Opcode}
    (hop : opcode = .ifTrue ∨ opcode = .jump) :
    ((disassemble program).instructions.map Instruction.opcode).count opcode =
      Event.testsIn script := by
  have hlast : [Opcode.halt].count opcode = 0 := by rcases hop with rfl | rfl <;> rfl
  rw [h.disassembly, map_opcode_locate, Plan.whole, List.map_append, List.count_append,
    h.planned.count_branches 0 hop]
  exact congrArg (Event.testsIn script + ·) hlast

end Assembled

/-- **Disassembly reads back what was emitted.**  The program of a script disassembles without a
failure into the drafts of the script's plan, which are what its generation has put out.  The
addresses tile the program, the last instruction is the end, and both opcodes that jump occur
once for each test of the script.  So the program has a listing. -/
theorem Scope.disassemble_generate_eq_plan {scope : Scope} {script : Script} {program : Program}
    {state : Generator} (h : scope.generate script {} = .ok program state) :
    ∃ plan, Planned scope script plan ∧ state.output.slots = plan.whole.flatMap Draft.slots ∧
      (disassemble program).failure = none ∧
      (disassemble program).instructions.map Instruction.opcode = plan.whole.map Draft.opcode ∧
      (disassemble program).instructions.map (fun i => i.operands.map some) =
        plan.whole.map (fun d => d.operands.map Value.byte?) ∧
      Tiles 0 (disassemble program).instructions program.length ∧
      (disassemble program).instructions.getLast? = some ⟨program.length - 1, .halt, []⟩ ∧
      ((disassemble program).instructions.map Instruction.opcode).count .ifTrue =
        Event.testsIn script ∧
      ((disassemble program).instructions.map Instruction.opcode).count .jump =
        Event.testsIn script ∧
      ∃ text, listing program = .ok text := by
  obtain ⟨plan, hprogram, hslots⟩ := Scope.assembled_of_generate h
  have hread := hprogram.disassembly
  have htiles := tiles_locate hprogram.fits 0
  rw [plan.length_whole, Nat.zero_add, ← hprogram.length] at htiles
  have hlast : (disassemble program).instructions.getLast? =
      some ⟨program.length - 1, .halt, []⟩ := by
    rw [hprogram.length, Nat.add_sub_cancel, hprogram.instructions_eq]
    exact List.getLast?_concat
  refine ⟨plan, hprogram.planned, hslots, by rw [hread], ?_, ?_, ?_, hlast,
    hprogram.count_branches (.inl rfl), hprogram.count_branches (.inr rfl),
    listing_ok (by rw [hread])⟩
  · rw [hread, map_opcode_locate]
  · rw [hread, map_operands_locate hprogram.fits]
  · rw [hread]
    exact htiles

/-- The nested script has two tests, so its program has two jumps of each sort. -/
theorem disassemble_generate_eq_plan_nested :
    ∃ program state, nestedScope.generate nestedScript {} = .ok program state ∧
      ((disassemble program).instructions.map Instruction.opcode).count .jump = 2 ∧
      ∃ text, listing program = .ok text := by
  obtain ⟨program, state, h⟩ := generate_nested
  obtain ⟨-, -, -, -, -, -, -, -, -, hjumps, hlisting⟩ := Scope.disassemble_generate_eq_plan h
  exact ⟨program, state, h, hjumps, hlisting⟩

end SceneScript
