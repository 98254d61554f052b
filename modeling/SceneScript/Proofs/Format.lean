import SceneScript.Proofs.Disassembly

/-!
# The format that disassembly accepts

A program is a row of complete instructions: opcode bytes, each with just the operands that its
opcode takes.  Nothing marks where an instruction ends, so the opcode has to tell, and it does:
a list of bytes can be cut into complete instructions in at most one way, from the start, and
disassembly finds it.

For any bytes at all there is a longest row of complete instructions at their start.  What is
left behind it can be nothing, a byte that is no opcode, or an opcode with too few bytes after
it, and these are the three ways for disassembly to stop.
-/

namespace SceneScript

/-! ## Complete instructions -/

theorem Opcode.eq_of_byte {op other : Opcode} (h : op.byte = other.byte) : op = other := by
  have hread := Opcode.ofByte?_byte op
  rw [h, Opcode.ofByte?_byte other] at hread
  exact (Option.some.inj hread).symm

/-- A complete instruction, wherever it stands. -/
structure Code where
  opcode : Opcode
  operands : List UInt8
  arity : operands.length = opcode.operandCount

namespace Code

/-- The opcode byte and the operands behind it. -/
def bytes (c : Code) : List UInt8 := c.opcode.byte :: c.operands

/-- Instructions written one behind the other. -/
def encode (codes : List Code) : List UInt8 := codes.flatMap bytes

/-- Instructions with their addresses, the first of which is given. -/
def place (address : Nat) : List Code → List Instruction
  | [] => []
  | c :: rest => ⟨address, c.opcode, c.operands⟩ :: place (address + c.bytes.length) rest

theorem length_bytes (c : Code) : c.bytes.length = c.opcode.size := by
  rw [bytes, List.length_cons, c.arity, Opcode.size, Nat.add_comm]

theorem encode_cons (c : Code) (rest : List Code) :
    encode (c :: rest) = c.bytes ++ encode rest := rfl

/-- Complete instructions at the start of some bytes are read, and reading goes on behind them. -/
theorem disassembleFrom_encode (codes : List Code) (address : Nat) (rest : List UInt8) :
    disassembleFrom address (encode codes ++ rest) =
      ⟨place address codes ++ (disassembleFrom (address + (encode codes).length) rest).instructions,
        (disassembleFrom (address + (encode codes).length) rest).failure⟩ := by
  induction codes generalizing address with
  | nil => rfl
  | cons c codes ih =>
      have hread := disassembleFrom_bytes (i := ⟨address, c.opcode, c.operands⟩) c.arity
        (encode codes ++ rest)
      rw [encode_cons, List.append_assoc, List.length_append, ← Nat.add_assoc]
      refine hread.trans ?_
      rw [← c.length_bytes, ih]
      rfl

theorem bytes_place (codes : List Code) (address : Nat) :
    (place address codes).flatMap Instruction.bytes = encode codes := by
  induction codes generalizing address with
  | nil => rfl
  | cons c codes ih =>
      rw [place, List.flatMap_cons, ih, encode_cons]
      rfl

theorem address_place {codes : List Code} {address k : Nat} {i : Instruction}
    (h : (place address codes)[k]? = some i) :
    i.address = ((place address codes).take k).foldl (fun total before => total + before.size)
      address := by
  induction codes generalizing address k with
  | nil => cases h
  | cons c codes ih =>
      cases k with
      | zero =>
          cases h
          rfl
      | succ k =>
          have hsize : Instruction.size ⟨address, c.opcode, c.operands⟩ = c.bytes.length := by
            rw [Instruction.size, bytes, List.length_cons, Nat.add_comm]
          rw [place, List.getElem?_cons_succ] at h
          rw [place, List.take_succ_cons, List.foldl_cons, hsize]
          exact ih h

/-! ## One way to cut -/

theorem eq_of_bytes {c d : Code} {rest more : List UInt8} (h : c.bytes ++ rest = d.bytes ++ more) :
    c = d ∧ rest = more := by
  obtain ⟨opcode, operands, arity⟩ := c
  obtain ⟨other, others, harity⟩ := d
  obtain ⟨hbyte, htail⟩ := List.cons.inj h
  obtain rfl := Opcode.eq_of_byte hbyte
  obtain ⟨rfl, hrest⟩ := List.append_inj htail (arity.trans harity.symm)
  exact ⟨rfl, hrest⟩

/-! ## Where it stops -/

/-- `Stops address rest outcome`: no instruction can be cut off from `rest`, which stands at the
address; the outcome is none if nothing is left, and else says what is wrong. -/
inductive Stops (address : Nat) : List UInt8 → Option Malformed → Prop
  | finished : Stops address [] none
  | unknown {byte : UInt8} {more : List UInt8} : (∀ op : Opcode, op.byte ≠ byte) →
      Stops address (byte :: more) (some (.unknownOpcode byte address))
  | truncated {op : Opcode} {more : List UInt8} : more.length < op.operandCount →
      Stops address (op.byte :: more) (some (.truncatedInstruction op address))

theorem Stops.not_bytes {address : Nat} {rest : List UInt8} {outcome : Option Malformed}
    (h : Stops address rest outcome) (c : Code) (more : List UInt8) : rest ≠ c.bytes ++ more := by
  intro heq
  cases h with
  | finished => cases heq
  | unknown hunknown =>
      obtain ⟨hbyte, -⟩ := List.cons.inj heq
      exact hunknown c.opcode hbyte.symm
  | @truncated op tail hshort =>
      obtain ⟨hbyte, htail⟩ := List.cons.inj heq
      have hlong : tail.length = c.operands.length + more.length := by
        rw [htail]
        exact List.length_append
      rw [c.arity, ← Opcode.eq_of_byte hbyte] at hlong
      omega

theorem Stops.none_iff {address : Nat} {rest : List UInt8} {outcome : Option Malformed}
    (h : Stops address rest outcome) : outcome = none ↔ rest = [] := by
  cases h with
  | finished => exact ⟨fun _ => rfl, fun _ => rfl⟩
  | unknown => simp only [reduceCtorEq]
  | truncated => simp only [reduceCtorEq]

/-- If nothing can be cut off behind some instructions, then every row of instructions at the
start of the same bytes is a part of theirs. -/
theorem Stops.isPrefix {codes : List Code} {address : Nat} {rest : List UInt8}
    {outcome : Option Malformed} (h : Stops address rest outcome) {others : List Code}
    {more : List UInt8} (heq : encode codes ++ rest = encode others ++ more) :
    others <+: codes := by
  induction codes generalizing others with
  | nil =>
      cases others with
      | nil => exact List.prefix_rfl
      | cons d others =>
          rw [encode_cons, List.append_assoc] at heq
          exact absurd heq (h.not_bytes d _)
  | cons c codes ih =>
      cases others with
      | nil => exact List.nil_prefix
      | cons d others =>
          rw [encode_cons, encode_cons, List.append_assoc, List.append_assoc] at heq
          obtain ⟨rfl, hrest⟩ := eq_of_bytes heq
          exact List.cons_prefix_cons.mpr ⟨rfl, ih hrest⟩

/-- Disassembly cuts any bytes into a row of complete instructions and a rest at which it stops. -/
theorem exists_cut (address : Nat) (bytes : List UInt8) :
    ∃ codes rest, bytes = encode codes ++ rest ∧
      (disassembleFrom address bytes).instructions = place address codes ∧
      Stops (address + (encode codes).length) rest (disassembleFrom address bytes).failure := by
  fun_induction disassembleFrom address bytes with
  | case1 address => exact ⟨[], [], rfl, rfl, .finished⟩
  | case2 address byte rest hread =>
      refine ⟨[], byte :: rest, rfl, rfl, .unknown fun op hop => ?_⟩
      rw [← hop, Opcode.ofByte?_byte] at hread
      cases hread
  | case3 address byte rest opcode hread hshort =>
      obtain rfl := Opcode.byte_of_ofByte? hread
      exact ⟨[], opcode.byte :: rest, rfl, rfl, .truncated hshort⟩
  | case4 address byte rest opcode hread hlong after ih =>
      obtain rfl := Opcode.byte_of_ofByte? hread
      obtain ⟨codes, tail, hbytes, hinstructions, hstops⟩ := ih
      have harity : (rest.take opcode.operandCount).length = opcode.operandCount := by
        rw [List.length_take]
        omega
      refine ⟨⟨opcode, rest.take opcode.operandCount, harity⟩ :: codes, tail, ?_, ?_, ?_⟩
      · rw [encode_cons, List.append_assoc, ← hbytes]
        exact congrArg (opcode.byte :: ·) (List.take_append_drop _ rest).symm
      · rw [place, length_bytes]
        exact congrArg (List.cons _) hinstructions
      · rw [encode_cons, List.length_append, length_bytes, ← Nat.add_assoc]
        exact hstops

end Code

/-! ## The main statement -/

/-- **Disassembly accepts the instruction format and nothing else.**  It finishes exactly on
rows of complete instructions; then what it yields is the program again, each instruction at the
sum of the sizes before it, and any row of complete instructions is yielded as it was written.
On other bytes it yields the longest row of complete instructions at their start and fails right
behind it, at an unknown opcode or at an instruction that the bytes do not complete. -/
theorem disassemble_accepts_format (program : Program) :
    ((disassemble program).failure = none ↔ ∃ codes, program = Code.encode codes) ∧
    ((disassemble program).failure = none →
      (disassemble program).instructions.flatMap Instruction.bytes = program ∧
      ∀ k i, (disassemble program).instructions[k]? = some i →
        i.address = ((disassemble program).instructions.take k).foldl
          (fun total before => total + before.size) 0) ∧
    (∀ codes, program = Code.encode codes → disassemble program = ⟨Code.place 0 codes, none⟩) ∧
    ∀ cause, (disassemble program).failure = some cause →
      ∃ codes rest, program = Code.encode codes ++ rest ∧
        (disassemble program).instructions = Code.place 0 codes ∧
        (∀ others, Code.encode others <+: program →
          others <+: codes ∧ (Code.encode others).length ≤ (Code.encode codes).length) ∧
        Code.Stops (Code.encode codes).length rest (some cause) := by
  obtain ⟨codes, rest, hprogram, hinstructions, hstops⟩ := Code.exists_cut 0 program
  rw [Nat.zero_add] at hstops
  have hread : ∀ others, program = Code.encode others →
      disassemble program = ⟨Code.place 0 others, none⟩ := by
    rintro others rfl
    have h := Code.disassembleFrom_encode others 0 []
    rw [List.append_nil] at h
    exact h.trans (by rw [disassembleFrom, List.append_nil])
  refine ⟨⟨?_, ?_⟩, ?_, hread, ?_⟩
  · intro hnone
    obtain rfl := hstops.none_iff.mp hnone
    exact ⟨codes, by rw [hprogram, List.append_nil]⟩
  · rintro ⟨others, hothers⟩
    rw [hread others hothers]
  · intro hnone
    obtain rfl := hstops.none_iff.mp hnone
    rw [List.append_nil] at hprogram
    rw [disassemble, hinstructions]
    refine ⟨(Code.bytes_place codes 0).trans hprogram.symm, fun k i hi => ?_⟩
    exact Code.address_place hi
  · intro cause hcause
    rw [← hcause]
    refine ⟨codes, rest, hprogram, hinstructions, ?_, hstops⟩
    rintro others ⟨more, hmore⟩
    have hprefix := hstops.isPrefix (hprogram.symm.trans hmore.symm)
    obtain ⟨tail, rfl⟩ := hprefix
    refine ⟨List.prefix_append _ _, ?_⟩
    rw [Code.encode, Code.encode, List.flatMap_append, List.length_append]
    exact Nat.le_add_right _ _

/-- A text with an end behind it is complete; with half a jump behind it, the text is all that
can be read. -/
theorem disassemble_accepts_format_jump_cut :
    (disassemble [0x01, 0x00, 0x05, 0x00]).failure = none ∧
    (disassemble [0x01, 0x00, 0x05, 0x02, 0x00]).failure = some (.truncatedInstruction .jump 3) ∧
    ∃ codes rest, [0x01, 0x00, 0x05, 0x02, 0x00] = Code.encode codes ++ rest ∧
      (disassemble [0x01, 0x00, 0x05, 0x02, 0x00]).instructions = Code.place 0 codes ∧
      Code.Stops (Code.encode codes).length rest (some (.truncatedInstruction .jump 3)) := by
  have hcut : (disassemble [0x01, 0x00, 0x05, 0x02, 0x00]).failure =
      some (.truncatedInstruction .jump 3) := by
    have h := Code.disassembleFrom_encode [⟨.text, [0x00, 0x05], rfl⟩] 0 [0x02, 0x00]
    rw [disassembleFrom] at h
    exact congrArg Disassembly.failure h
  refine ⟨(disassemble_accepts_format _).1.mpr
    ⟨[⟨.text, [0x00, 0x05], rfl⟩, ⟨.halt, [], rfl⟩], rfl⟩, hcut, ?_⟩
  obtain ⟨codes, rest, hbytes, hread, -, hstops⟩ := (disassemble_accepts_format _).2.2.2 _ hcut
  exact ⟨codes, rest, hbytes, hread, hstops⟩

end SceneScript
