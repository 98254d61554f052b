/-!
# Hexadecimal text

Bytes, addresses and character codes are shown in hexadecimal with a fixed least width: listings
and opcode names in upper case, character codes and programs in lower case.
-/

namespace SceneScript.Text

/-- The letters of a hexadecimal text. -/
inductive HexCase where
  | upper
  | lower

/-- A natural number in hexadecimal, filled with zeros up to a width. -/
def hex (case : HexCase) (width n : Nat) : String :=
  let digits := match case with
    | .upper => (Nat.toDigits 16 n).map Char.toUpper
    | .lower => Nat.toDigits 16 n
  String.ofList (List.replicate (width - digits.length) '0' ++ digits)

/-- The value of a hexadecimal digit of either case. -/
def hexValue? (c : Char) : Option Nat :=
  if '0' ≤ c ∧ c ≤ '9' then some (c.toNat - '0'.toNat)
  else if 'a' ≤ c ∧ c ≤ 'f' then some (c.toNat - 'a'.toNat + 10)
  else if 'A' ≤ c ∧ c ≤ 'F' then some (c.toNat - 'A'.toNat + 10)
  else none

/-- Bytes as lower case hexadecimal, two digits each. -/
def hexBytes (bytes : List UInt8) : String :=
  String.join (bytes.map fun b => hex .lower 2 b.toNat)

/-- Bytes read from pairs of hexadecimal digits. -/
def unhexBytes? : List Char → Option (List UInt8)
  | [] => some []
  | high :: low :: rest => do
    let h ← hexValue? high
    let l ← hexValue? low
    let bytes ← unhexBytes? rest
    return UInt8.ofNat (16 * h + l) :: bytes
  | [_] => none

end SceneScript.Text
