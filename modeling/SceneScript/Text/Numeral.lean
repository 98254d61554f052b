/-!
# Decimal numerals

Authors write numbers in the digits of their script, with blanks before them and a unit or a
remark behind, so the integer of a text is read from its start: blanks, then at most one sign,
then a run of decimal digits, as long as it lasts.  Whatever follows the digits is ignored; a
text without a digit in that place has no leading integer.

Reading a numeral and writing one take time that grows with the square of its length, so there
is a limit to the digits of an integer that is read from a text or written to one.  Zeros at the
start count as well.
-/

namespace SceneScript

/-! ## The length of numerals -/

/-- The most digits that an integer is read from or written with. -/
def digitLimit : Nat := 4300

/-- An integer is beyond the limit: as a text of so many digits that is to be read, or as a number
that is to be written. -/
inductive TooManyDigits where
  | toRead (count : Nat)
  | toWrite
  deriving DecidableEq

/-- What is told about an integer that is too long. -/
def TooManyDigits.message (e : TooManyDigits) : String :=
  let found := match e with
    | .toRead count => ": value has " ++ toString count ++ " digits"
    | .toWrite => ""
  "Exceeds the limit (" ++ toString digitLimit ++ " digits) for integer string conversion" ++
    found ++ "; use sys.set_int_max_str_digits() to increase the limit"

/-- An integer in decimal. -/
def decimal (n : Int) : Except TooManyDigits String :=
  if (Nat.toDigits 10 n.natAbs).length ≤ digitLimit then .ok (toString n) else .error .toWrite

namespace Text

/-! ## Blanks -/

/-- The blank characters, as ranges of code points with both ends included: the separators and the
controls that move the writing position, in every script and not only in ASCII. -/
def blankRanges : List (Nat × Nat) :=
  [(0x9, 0xd), (0x1c, 0x20), (0x85, 0x85), (0xa0, 0xa0), (0x1680, 0x1680), (0x2000, 0x200a),
   (0x2028, 0x2029), (0x202f, 0x202f), (0x205f, 0x205f), (0x3000, 0x3000)]

/-- Whether a character is blank. -/
def isBlank (c : Char) : Bool :=
  blankRanges.any fun (first, last) => first ≤ c.toNat && c.toNat ≤ last

/-! ## Digits

A decimal digit is a character of general category Nd (Unicode 14).  Each script that has decimal
digits gives them ten consecutive code points, zero first, so the class is a table of zeros. -/

/-- The code points of the digit zero, one for each run of ten decimal digits. -/
def digitZeros : List Nat :=
  [0x30, 0x660, 0x6f0, 0x7c0, 0x966, 0x9e6, 0xa66, 0xae6, 0xb66, 0xbe6, 0xc66, 0xce6, 0xd66, 0xde6,
   0xe50, 0xed0, 0xf20, 0x1040, 0x1090, 0x17e0, 0x1810, 0x1946, 0x19d0, 0x1a80, 0x1a90, 0x1b50,
   0x1bb0, 0x1c40, 0x1c50, 0xa620, 0xa8d0, 0xa900, 0xa9d0, 0xa9f0, 0xaa50, 0xabf0, 0xff10, 0x104a0,
   0x10d30, 0x11066, 0x110f0, 0x11136, 0x111d0, 0x112f0, 0x11450, 0x114d0, 0x11650, 0x116c0,
   0x11730, 0x118e0, 0x11950, 0x11c50, 0x11d50, 0x11da0, 0x16a60, 0x16ac0, 0x16b50, 0x1d7ce,
   0x1d7d8, 0x1d7e2, 0x1d7ec, 0x1d7f6, 0x1e140, 0x1e2f0, 0x1e950, 0x1fbf0]

/-- The value of a decimal digit of any script. -/
def digitValue? (c : Char) : Option Nat :=
  digitZeros.findSome? fun first =>
    if first ≤ c.toNat ∧ c.toNat ≤ first + 9 then some (c.toNat - first) else none

/-- Whether a character is a decimal digit of some script. -/
def isDecimalDigit (c : Char) : Bool := (digitValue? c).isSome

/-- The value of a run of decimal digits. -/
def digitsValue (digits : List Char) : Nat :=
  digits.foldl (fun n c => 10 * n + (digitValue? c).getD 0) 0

/-! ## The integer at the start of a text -/

/-- Digits, and whether a minus stands before them. -/
structure SignedDigits where
  isNegative : Bool
  digits : List Char
  deriving DecidableEq

/-- The digits at the start of a list of characters, if there are any. -/
def leadingDigits? (chars : List Char) : Option (List Char) :=
  match chars.takeWhile isDecimalDigit with
  | [] => none
  | digits => some digits

/-- Digits behind an optional sign. -/
def signedDigits? : List Char → Option SignedDigits
  | '-' :: rest => (leadingDigits? rest).map fun digits => ⟨true, digits⟩
  | '+' :: rest => (leadingDigits? rest).map fun digits => ⟨false, digits⟩
  | rest => (leadingDigits? rest).map fun digits => ⟨false, digits⟩

/-- The digits that a text starts with, behind blanks and an optional sign. -/
def leadingNumeral? (chars : List Char) : Option SignedDigits :=
  signedDigits? (chars.dropWhile isBlank)

namespace SignedDigits

/-- The integer that digits stand for, however many they are. -/
def value (d : SignedDigits) : Int :=
  if d.isNegative then -(digitsValue d.digits : Int) else digitsValue d.digits

/-- The integer read from digits, of which there may not be too many. -/
def read (d : SignedDigits) : Except TooManyDigits Int :=
  if d.digits.length ≤ digitLimit then .ok d.value else .error (.toRead d.digits.length)

end SignedDigits

/-- The integer at the start of a text, if there is one. -/
def leadingInteger (chars : List Char) : Except TooManyDigits (Option Int) :=
  match leadingNumeral? chars with
  | none => .ok none
  | some numeral => numeral.read.map some

end Text

end SceneScript
