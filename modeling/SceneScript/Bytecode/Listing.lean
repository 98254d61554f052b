import SceneScript.Bytecode.Instruction

/-!
# Listings

A listing shows a program one instruction a line: its address, the name of its opcode, its
operand bytes and, after a semicolon, the addresses it may jump to.
-/

namespace SceneScript

/-- The width of the column of opcode names. -/
def nameColumn : Nat := 20

/-- A text filled with spaces on the right up to a width. -/
def padRight (width : Nat) (s : String) : String :=
  s ++ String.ofList (List.replicate (width - s.length) ' ')

/-- A text without the spaces at its end. -/
def trimRight (s : String) : String :=
  String.ofList (s.toList.reverse.dropWhile (· == ' ')).reverse

namespace Instruction

/-- An instruction without its targets: address, name and operands. -/
def listed (i : Instruction) : String :=
  let operands := " ".intercalate (i.operands.map fun b => Text.hex .upper 2 b.toNat)
  trimRight (Text.hex .upper 4 i.address ++ "  " ++ padRight nameColumn i.opcode.name ++
    " " ++ operands)

/-- The line of an instruction. -/
def line (i : Instruction) : Except Fault String := do
  match ← i.targets with
  | [] => return i.listed
  | targets => return i.listed ++ "  ; -> " ++ commaList (targets.map (Text.hex .upper 4))

end Instruction

/-- The lines of a program's listing. -/
def listingLines (program : Program) : Except Fault (List String) := do
  let result := disassemble program
  let lines ← result.instructions.mapM Instruction.line
  match result.failure with
  | none => return lines
  | some cause => throw (.malformed cause)

/-- The listing of a program. -/
def listing (program : Program) : Except Fault String := do
  return "\n".intercalate (← listingLines program)

end SceneScript
