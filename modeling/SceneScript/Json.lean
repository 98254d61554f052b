import SceneScript.Text.Hexadecimal
import SceneScript.Text.Numeral
import SceneScript.Value.Basic

/-!
# Reading JSON text

Scripts and tables are JSON files.  The reader keeps what the compiler distinguishes: a number
without a fraction or exponent is an integer, which may not have too many digits, any other is a
binary64 number, and the fields of an object keep their order (a repeated name keeps its first
place and takes its last value).  The words `NaN`, `Infinity` and `-Infinity` are numbers too.

A text is a list of characters, so half a surrogate pair, which a string may spell out in
hexadecimal, cannot be kept: it is read as the replacement character.

A reading function takes the characters that are left and returns what it read with the
characters after it.  Where reading fails, the characters left at that point are kept, so the
place of the failure (line, column and offset) is found afterwards from their number, and no
position is carried along.  An integer that is too long is reported without its place.
-/

namespace SceneScript.Json

/-- Why a text is not JSON. -/
inductive Problem where
  | expectedValue
  | expectedName
  | expectedColon
  | expectedComma
  | extraData
  | unterminatedString
  | controlCharacter
  | invalidEscape
  | invalidUnicodeEscape
  | byteOrderMark
  deriving DecidableEq

/-- The wording of a problem. -/
def Problem.reason : Problem → String
  | .expectedValue => "Expecting value"
  | .expectedName => "Expecting property name enclosed in double quotes"
  | .expectedColon => "Expecting ':' delimiter"
  | .expectedComma => "Expecting ',' delimiter"
  | .extraData => "Extra data"
  | .unterminatedString => "Unterminated string starting at"
  | .controlCharacter => "Invalid control character at"
  | .invalidEscape => "Invalid \\escape"
  | .invalidUnicodeEscape => "Invalid \\uXXXX escape"
  | .byteOrderMark => "Unexpected UTF-8 BOM (decode using utf-8-sig)"

/-- A problem and its place in the text.  Lines and columns count from one, the offset from zero. -/
structure Error where
  problem : Problem
  line : Nat
  column : Nat
  offset : Nat
  deriving DecidableEq

/-- What is told about a text that is not JSON. -/
def Error.message (e : Error) : String :=
  e.problem.reason ++ ": line " ++ toString e.line ++ " column " ++ toString e.column ++
    " (char " ++ toString e.offset ++ ")"

/-- A problem with its place, which is told by the characters that were left when it was met. -/
def Problem.locate (problem : Problem) (text rest : List Char) : Error :=
  let offset := text.length - rest.length
  let before := text.take offset
  { problem := problem
    line := before.count '\n' + 1
    column := (before.reverse.takeWhile (· != '\n')).length + 1
    offset := offset }

/-- Why reading stopped: a problem, with the characters that were left when it was met, or an
integer that is too long. -/
inductive Stop where
  | problem (cause : Problem) (rest : List Char)
  | tooLong (e : TooManyDigits)

/-- Why a text cannot be read: it is no JSON, or it holds an integer that is too long. -/
inductive Failure where
  | notJson (error : Error)
  | tooLong (e : TooManyDigits)

/-- The failure to read a text that stopped somewhere. -/
def Stop.failure (text : List Char) : Stop → Failure
  | .problem cause rest => .notJson (cause.locate text rest)
  | .tooLong e => .tooLong e

/-- Whether a character may stand between the parts of a JSON text. -/
def isSpace (c : Char) : Bool := c == ' ' || c == '\t' || c == '\n' || c == '\r'

/-- Leaves out the space at the start. -/
def skipSpace (chars : List Char) : List Char := chars.dropWhile isSpace

/-! ## Strings -/

/-- The value of four hexadecimal digits. -/
def hexWord? (a b c d : Char) : Option Nat := do
  let high := (← Text.hexValue? a) * 16 + (← Text.hexValue? b)
  let low := (← Text.hexValue? c) * 16 + (← Text.hexValue? d)
  return high * 256 + low

/-- What a backslash and the character after it stand for. -/
def escape? : Char → Option Char
  | '"' => some '"'
  | '\\' => some '\\'
  | '/' => some '/'
  | 'b' => some '\x08'
  | 'f' => some '\x0c'
  | 'n' => some '\n'
  | 'r' => some '\r'
  | 't' => some '\t'
  | _ => none

/-- Whether a code is the first half of a surrogate pair. -/
def isHighSurrogate (n : Nat) : Bool := 0xd800 ≤ n && n ≤ 0xdbff

/-- Whether a code is the second half of a surrogate pair. -/
def isLowSurrogate (n : Nat) : Bool := 0xdc00 ≤ n && n ≤ 0xdfff

/-- The character of a code.  Half a surrogate pair is no character; the replacement character
stands in for it. -/
def charOfCode (n : Nat) : Char :=
  if isHighSurrogate n || isLowSurrogate n then Char.ofNat 0xfffd else Char.ofNat n

/-- The character of a surrogate pair. -/
def joinSurrogates (high low : Nat) : Char :=
  Char.ofNat (0x10000 + (high - 0xd800) * 0x400 + (low - 0xdc00))

/-- The rest of a string, after the opening quote.  The characters read so far are kept last one
first; `opening` is the text from the opening quote on.  A code in hexadecimal needs its four
digits and one more character after them, since at least the closing quote must follow. -/
def stringBody (opening : List Char) : List Char → List Char → Except Stop (String × List Char)
  | _, [] => .error (.problem .unterminatedString opening)
  | done, '"' :: rest => .ok (String.ofList done.reverse, rest)
  | _, ['\\'] => .error (.problem .unterminatedString opening)
  | done, '\\' :: 'u' :: a :: b :: c :: d :: '\\' :: 'u' :: e :: f :: g :: h :: next :: rest =>
    match hexWord? a b c d with
    | none => .error (.problem .invalidUnicodeEscape
        ('u' :: a :: b :: c :: d :: '\\' :: 'u' :: e :: f :: g :: h :: next :: rest))
    | some high =>
      if isHighSurrogate high then
        match hexWord? e f g h with
        | none => .error (.problem .invalidUnicodeEscape ('u' :: e :: f :: g :: h :: next :: rest))
        | some low =>
          if isLowSurrogate low then
            stringBody opening (joinSurrogates high low :: done) (next :: rest)
          else
            stringBody opening (charOfCode high :: done)
              ('\\' :: 'u' :: e :: f :: g :: h :: next :: rest)
      else
        stringBody opening (charOfCode high :: done)
          ('\\' :: 'u' :: e :: f :: g :: h :: next :: rest)
  | done, '\\' :: 'u' :: a :: b :: c :: d :: next :: rest =>
    match hexWord? a b c d with
    | none => .error (.problem .invalidUnicodeEscape ('u' :: a :: b :: c :: d :: next :: rest))
    | some code => stringBody opening (charOfCode code :: done) (next :: rest)
  | _, '\\' :: 'u' :: rest => .error (.problem .invalidUnicodeEscape ('u' :: rest))
  | done, '\\' :: c :: rest =>
    match escape? c with
    | none => .error (.problem .invalidEscape ('\\' :: c :: rest))
    | some plain => stringBody opening (plain :: done) rest
  | done, c :: rest =>
    if c.toNat < 0x20 then .error (.problem .controlCharacter (c :: rest))
    else stringBody opening (c :: done) rest

/-! ## Numbers -/

/-- Whether a character is a digit of a JSON number. -/
def isDigit (c : Char) : Bool := '0' ≤ c && c ≤ '9'

/-- The value of a run of digits. -/
def digitsValue (digits : List Char) : Nat :=
  digits.foldl (fun n c => 10 * n + (c.toNat - '0'.toNat)) 0

/-- The whole part of a number: a single zero, or digits that do not start with one. -/
def wholePart? : List Char → Option (List Char × List Char)
  | '0' :: rest => some (['0'], rest)
  | chars =>
    match chars.takeWhile isDigit with
    | [] => none
    | digits => some (digits, chars.dropWhile isDigit)

/-- The digits after a point, if the point has any. -/
def fractionPart : List Char → Option (List Char) × List Char
  | '.' :: rest =>
    match rest.takeWhile isDigit with
    | [] => (none, '.' :: rest)
    | digits => (some digits, rest.dropWhile isDigit)
  | chars => (none, chars)

/-- A sign and digits, if there are any digits. -/
def signedDigits? : List Char → Option (Int × List Char)
  | '-' :: rest => signed (-1) rest
  | '+' :: rest => signed 1 rest
  | rest => signed 1 rest
where
  signed (sign : Int) (chars : List Char) : Option (Int × List Char) :=
    match chars.takeWhile isDigit with
    | [] => none
    | digits => some (sign * digitsValue digits, chars.dropWhile isDigit)

/-- The exponent of a number, if it has one. -/
def exponentPart : List Char → Option Int × List Char
  | chars@(mark :: rest) =>
    if mark == 'e' || mark == 'E' then
      match signedDigits? rest with
      | some (exponent, after) => (some exponent, after)
      | none => (none, chars)
    else (none, chars)
  | [] => (none, [])

/-- A number as it is written. -/
structure Number where
  isNegative : Bool
  whole : List Char
  fraction : Option (List Char)
  exponent : Option Int

/-- The number at the start, if there is one. -/
def number? (chars : List Char) : Option (Number × List Char) := do
  let (negative, unsigned) := match chars with
    | '-' :: rest => (true, rest)
    | _ => (false, chars)
  let (whole, afterWhole) ← wholePart? unsigned
  let (fraction, afterFraction) := fractionPart afterWhole
  let (exponent, rest) := exponentPart afterFraction
  return (⟨negative, whole, fraction, exponent⟩, rest)

/-- The value of a number.  Only the digits of an integer are limited. -/
def Number.value (n : Number) : Except TooManyDigits Value :=
  match n.fraction, n.exponent with
  | none, none =>
    if n.whole.length ≤ digitLimit then
      let magnitude : Int := digitsValue n.whole
      .ok (.int (if n.isNegative then -magnitude else magnitude))
    else .error (.toRead n.whole.length)
  | _, _ =>
    let places := n.fraction.getD []
    .ok (.float (Binary64.ofDecimal n.isNegative (digitsValue (n.whole ++ places))
      (n.exponent.getD 0 - places.length)))

/-! ## Values -/

/-- The words that stand for values. -/
def words : List (List Char × Value) :=
  [("null".toList, .null), ("true".toList, .bool true), ("false".toList, .bool false),
   ("NaN".toList, .float .nan), ("Infinity".toList, .float (.infinite false)),
   ("-Infinity".toList, .float (.infinite true))]

/-- The word at the start, if there is one. -/
def word? (chars : List Char) : Option (Value × List Char) :=
  words.findSome? fun (word, value) =>
    if word.isPrefixOf chars then some (value, chars.drop word.length) else none

/-- The word or number at the start. -/
def readAtom (chars : List Char) : Except Stop (Value × List Char) :=
  match word? chars, number? chars with
  | some found, _ => .ok found
  | none, some (number, rest) =>
    match number.value with
    | .ok v => .ok (v, rest)
    | .error e => .error (.tooLong e)
  | none, none => .error (.problem .expectedValue chars)

mutual
/-- The value at the start.  Each call consumes a character or hands on to one that does, so
twice the length of the text bounds the calls. -/
def readValue : Nat → List Char → Except Stop (Value × List Char)
  | 0, chars => .error (.problem .expectedValue chars)
  | fuel + 1, chars =>
    match chars with
    | '"' :: rest => do
      let (s, after) ← stringBody chars [] rest
      return (.str s, after)
    | '[' :: rest =>
      match skipSpace rest with
      | ']' :: after => return (.list [], after)
      | inside => readItems fuel [] inside
    | '\x7b' :: rest =>
      match skipSpace rest with
      | '\x7d' :: after => return (.object [], after)
      | inside => readFields fuel [] inside
    | _ => readAtom chars

/-- The items of a list from the next one on, with those already read, the last one first. -/
def readItems : Nat → List Value → List Char → Except Stop (Value × List Char)
  | 0, _, chars => .error (.problem .expectedValue chars)
  | fuel + 1, done, chars => do
    let (item, after) ← readValue fuel chars
    match skipSpace after with
    | ']' :: rest => return (.list (item :: done).reverse, rest)
    | ',' :: rest => readItems fuel (item :: done) (skipSpace rest)
    | rest => .error (.problem .expectedComma rest)

/-- The fields of an object from the next one on, with those already read. -/
def readFields : Nat → Fields → List Char → Except Stop (Value × List Char)
  | 0, _, chars => .error (.problem .expectedName chars)
  | fuel + 1, done, chars =>
    match chars with
    | '"' :: body => do
      let (name, afterName) ← stringBody chars [] body
      match skipSpace afterName with
      | ':' :: afterColon =>
        let (value, after) ← readValue fuel (skipSpace afterColon)
        let fields := Fields.put done (.str name) value
        match skipSpace after with
        | '\x7d' :: rest => return (.object fields, rest)
        | ',' :: rest => readFields fuel fields (skipSpace rest)
        | rest => .error (.problem .expectedComma rest)
      | rest => .error (.problem .expectedColon rest)
    | _ => .error (.problem .expectedName chars)
end

/-- The one value of a text, with nothing but space around it. -/
def readWhole (chars : List Char) : Except Stop Value :=
  if chars.head? = some '\ufeff' then .error (.problem .byteOrderMark chars)
  else do
    let (value, rest) ← readValue (2 * chars.length + 2) (skipSpace chars)
    match skipSpace rest with
    | [] => return value
    | extra => .error (.problem .extraData extra)

/-- The value that a JSON text denotes. -/
def parse (chars : List Char) : Except Failure Value :=
  (readWhole chars).mapError (·.failure chars)

end SceneScript.Json
