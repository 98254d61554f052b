import SceneScript.Number.Shortest

/-!
# How a binary64 number is written

The digits come from `Decimal.shortest`; what is decided here is their arrangement.  A number
whose leading digit stands between four places after the point and sixteen before it is written
positionally, always with a fraction part; any other is written with an exponent of at least two
digits and a sign.
-/

namespace SceneScript

/-- The decisions of a written form for binary64 numbers. -/
structure FloatStyle where
  /-- The least and the greatest exponent of the leading digit that are written positionally. -/
  positionalFrom : Int
  positionalTo : Int
  /-- The least number of digits of a written exponent. -/
  exponentDigits : Nat
  /-- The words for the undefined value and for infinity. -/
  undefinedWord : String
  infiniteWord : String

/-- The style of messages and listings. -/
def FloatStyle.standard : FloatStyle where
  positionalFrom := -4
  positionalTo := 15
  exponentDigits := 2
  undefinedWord := "nan"
  infiniteWord := "inf"

namespace FloatStyle

/-- A run of zeros. -/
def zeros (count : Nat) : String := String.ofList (List.replicate count '0')

/-- Digits with a decimal point: `digits * 10 ^ exponent`, with the leading digit at `lead`. -/
def positional (digits : String) (exponent lead : Int) : String :=
  if 0 ≤ exponent then digits ++ zeros exponent.toNat ++ ".0"
  else if 0 ≤ lead then
    let whole := lead.toNat + 1
    String.ofList (digits.toList.take whole) ++ "." ++ String.ofList (digits.toList.drop whole)
  else "0." ++ zeros (-lead - 1).toNat ++ digits

/-- Digits with one place before the point and a written exponent. -/
def scientific (style : FloatStyle) (digits : String) (lead : Int) : String :=
  let mantissa := match digits.toList with
    | first :: second :: rest => String.ofList (first :: '.' :: second :: rest)
    | short => String.ofList short
  let size := toString lead.natAbs
  mantissa ++ (if lead < 0 then "e-" else "e+") ++
    zeros (style.exponentDigits - size.length) ++ size

/-- A decimal in the given style. -/
def decimal (style : FloatStyle) (d : Decimal) : String :=
  let digits := toString d.coefficient
  let lead := d.exponent + digits.length - 1
  if style.positionalFrom ≤ lead ∧ lead ≤ style.positionalTo then positional digits d.exponent lead
  else style.scientific digits lead

/-- A number in the given style. -/
def render (style : FloatStyle) : Binary64 → String
  | .nan => style.undefinedWord
  | .infinite negative => (if negative then "-" else "") ++ style.infiniteWord
  | .finite negative mantissa exponent _ =>
    (if negative then "-" else "") ++
      if mantissa = 0 then "0.0" else style.decimal (Decimal.shortest mantissa exponent)

end FloatStyle

end SceneScript
