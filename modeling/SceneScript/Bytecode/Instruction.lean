import SceneScript.Fault
import SceneScript.Value.Coercion

/-!
# Instructions and disassembly

A program is a list of bytes.  Disassembly cuts it into instructions from the start, each an
opcode with as many operands as the instruction set gives it; it stops at a byte that is no
opcode or at an instruction that the program does not complete, and keeps what was cut off
before.
-/

namespace SceneScript

/-! ## Positions counted from either end

A position in a list may be given from its start or, as a negative number, from its end.  A single
position has to lie in the list; the ends of a stretch are moved to the nearest place that does. -/

namespace Indexing

/-- The place in a list of the given length that an integer points to. -/
def place? (length : Nat) (i : Int) : Option Nat :=
  let fromStart := if i < 0 then i + length else i
  if 0 ≤ fromStart ∧ fromStart < length then some fromStart.toNat else none

/-- The end of a stretch, moved into the list. -/
def clamp (length : Nat) (i : Int) : Nat :=
  let fromStart := if i < 0 then i + length else i
  min fromStart.toNat length

/-- The items from one end of a stretch to the other; an end that is not given is the end of the
list. -/
def stretch {α : Type} (items : List α) (start stop : Option Int) : List α :=
  let first := start.elim 0 (clamp items.length)
  let last := stop.elim items.length (clamp items.length)
  (items.take last).drop first

end Indexing

/-! ## Instructions -/

/-- A compiled script. -/
abbrev Program := List UInt8

/-- An instruction at its address. -/
structure Instruction where
  address : Nat
  opcode : Opcode
  operands : List UInt8
  deriving DecidableEq

/-- The word that starts at an offset, high byte first. -/
def wordAt (bytes : List UInt8) (offset : Int) : Except Fault Nat :=
  match Indexing.stretch bytes (some offset) (some (offset + 2)) with
  | [high, low] => .ok (high.toNat * 256 + low.toNat)
  | _ => .error .shortWord

/-- The opcode whose byte is the given number, of whatever type. -/
def Opcode.ofValue? (v : Value) : Option Opcode :=
  Opcode.all.find? fun op => v.equals (.nat op.byte.toNat)

/-- The opcode that a value has to be. -/
def Opcode.ofValue (v : Value) : Except Fault Opcode :=
  match Opcode.ofValue? v with
  | some op => .ok op
  | none => .error (.malformed (.notAnOpcode v))

/-- An opcode described by its name, its byte and the number of its operands. -/
def Opcode.summary (op : Opcode) : String :=
  "Opcode(" ++ op.name ++ ", 0x" ++ Text.hex .upper 2 op.byte.toNat ++ ", " ++
    toString op.operandCount ++ ")"

/-- The addresses among the operands of an opcode. -/
def Opcode.targets (opcode : Opcode) (operands : List UInt8) : Except Fault (List Nat) :=
  opcode.addressOffsets.mapM fun (offset : Nat) => wordAt operands offset

/-- The addresses among operands that are not yet known to be bytes; they are only looked at if
the opcode has addresses at all. -/
def Opcode.targetsOf (opcode : Opcode) (operands : List Value) : Except Fault (List Nat) :=
  match opcode.addressOffsets with
  | [] => .ok []
  | _ => do opcode.targets (← Value.toBytes operands)

namespace Instruction

/-- The number of bytes of an instruction. -/
def size (i : Instruction) : Nat := 1 + i.operands.length

/-- The bytes of an instruction. -/
def bytes (i : Instruction) : List UInt8 := i.opcode.byte :: i.operands

/-- The addresses that an instruction may jump to. -/
def targets (i : Instruction) : Except Fault (List Nat) := i.opcode.targets i.operands

end Instruction

/-- What disassembly gives: the instructions that were cut off, and why it stopped before the
end. -/
structure Disassembly where
  instructions : List Instruction
  failure : Option Malformed

/-- Disassembles bytes that start at an address. -/
def disassembleFrom (address : Nat) (bytes : List UInt8) : Disassembly :=
  match bytes with
  | [] => ⟨[], none⟩
  | byte :: rest =>
    match Opcode.ofByte? byte with
    | none => ⟨[], some (.unknownOpcode byte address)⟩
    | some opcode =>
      if rest.length < opcode.operandCount then ⟨[], some (.truncatedInstruction opcode address)⟩
      else
        let after := disassembleFrom (address + opcode.size) (rest.drop opcode.operandCount)
        ⟨⟨address, opcode, rest.take opcode.operandCount⟩ :: after.instructions, after.failure⟩
termination_by bytes.length
decreasing_by simp only [List.length_drop, List.length_cons]; omega

/-- Disassembles a program. -/
def disassemble (program : Program) : Disassembly := disassembleFrom 0 program

end SceneScript
