import SceneScript.Fault

/-!
# Operands

Small encodings that turn an argument into operand bytes: the two halves of a word, facing
directions, joypad masks, camera speeds and encounter numbers.  Where an argument makes no sense
the encoding does not hide it: an oversized or foreign value is passed on, and the range scan of
the output refuses it.  Two encodings have limits of their own and fail beyond them: a camera
speed for which there is no number as large as its speed byte would be, and an encounter whose
numeral is too long to be read.
-/

namespace SceneScript.Operand

/-! ## Words -/

/-- The high byte of a word.  It is not masked, so a number beyond 16 bits shows up as no byte. -/
def high (n : Int) : Int := n.fdiv 256

/-- The low byte of a word. -/
def low (n : Int) : Int := n.emod 256

/-- The high byte of a value, which has to be an integer. -/
def highOf (v : Value) : Except Fault Int :=
  match v.integer? with
  | some n => .ok (high n)
  | none => .error .wrongType

/-- The low byte of a value, which has to be an integer. -/
def lowOf (v : Value) : Except Fault Int :=
  match v.integer? with
  | some n => .ok (low n)
  | none => .error .wrongType

/-- The two operands of an index or address, high byte first. -/
def word (n : Nat) : List Value := [.int (high n), .int (low n)]

/-! ## Names -/

/-- The bits of the facing directions. -/
def directions : List (String × Nat) :=
  [("down", 1), ("left", 2), ("right", 4), ("up", 8)]

/-- The bits of the joypad buttons. -/
def buttons : List (String × Nat) :=
  [("right", 0x01), ("left", 0x02), ("up", 0x04), ("down", 0x08),
   ("a", 0x10), ("b", 0x20), ("select", 0x40), ("start", 0x80)]

/-- The joypad mask that waits for any button. -/
def anyButton : Nat := 0xff

/-- A facing direction; anything but a known name gives no direction. -/
def direction : Value → Nat
  | .str s => (directions.lookup s).getD 0
  | _ => 0

/-- The bit of one button of a list; what is not a known name adds nothing. -/
def buttonBit : Value → Nat
  | .str s => (buttons.lookup s).getD 0
  | _ => 0

/-- A joypad mask for a button name or a list of them; if none is known, any button is waited
for. -/
def buttonMask : Value → Nat
  | .list names =>
    let mask := names.foldl (fun mask name => mask ||| buttonBit name) 0
    if mask = 0 then anyButton else mask
  | .str s => (buttons.lookup s).getD anyButton
  | _ => anyButton

/-! ## Camera speed -/

/-- The speed byte of a camera speed: the low bits mask the frame counter and bit 5 marks a
smooth move. -/
def speedByte (speed : Nat) : Nat := (Nat.pow 2 speed - 1) ||| (if 0 < speed then 32 else 0)

/-- The most places that a power of two can be shifted by.  A number takes a digit for each thirty
bits and cannot have more than a quarter of the largest signed 64-bit address of them.  Long before
that, memory runs out; that is not told apart here. -/
def shiftLimit : Nat := 30 * 2305843009213693944

/-- The speed operand of an argument; what is not a natural number is left as it is. -/
def cameraSpeed (v : Value) : Except Fault Value :=
  match v.integer? with
  | some n =>
    if n < 0 then .ok v
    else if n ≤ shiftLimit then .ok (.nat (speedByte n.toNat))
    else .error .overflow
  | none => .ok v

/-! ## Encounters -/

/-- The integer that an argument starts with.  Fractions are cut off toward zero, and a truth
value is not a number here.  A list or an object is looked at as a text, which starts with a
bracket; there is no integer then, but the text has to be formed. -/
def leadingInteger : Value → Except Fault (Option Int)
  | .int n => .ok (some n)
  | .float x => .ok x.truncate?
  | .str s => Fault.limited (Text.leadingInteger s.toList)
  | .scalar _ => .ok none
  | v => Fault.limited (v.display.map fun _ => none)

end SceneScript.Operand
