import SceneScript.Text.Hexadecimal

/-!
# The text of a file

A file is a list of bytes, which encode its text in UTF-8; the text is read one encoded
character at a time.  A first byte says how many bytes follow it and, for the shortest form and
the excluded surrogates, narrows what the first of them may be.  Reading stops at the first byte
that does not fit: either it cannot start a character, or it cannot continue one, or the file
ends inside one.  The report names the bytes that were already part of the broken character.
-/

namespace SceneScript.Text.Utf8

/-- Why bytes are not UTF-8. -/
inductive Problem where
  | invalidStart
  | invalidContinuation
  | unexpectedEnd
  deriving DecidableEq

/-- The wording of a problem. -/
def Problem.reason : Problem → String
  | .invalidStart => "invalid start byte"
  | .invalidContinuation => "invalid continuation byte"
  | .unexpectedEnd => "unexpected end of data"

/-- A broken character: its first byte, where it starts, and how many bytes belong to it. -/
structure Error where
  problem : Problem
  first : UInt8
  start : Nat
  length : Nat
  deriving DecidableEq

/-- What is told about a broken character. -/
def Error.message (e : Error) : String :=
  let place :=
    if e.length = 1 then
      "byte 0x" ++ hex .lower 2 e.first.toNat ++ " in position " ++ toString e.start
    else "bytes in position " ++ toString e.start ++ "-" ++ toString (e.start + e.length - 1)
  "'utf-8' codec can't decode " ++ place ++ ": " ++ e.problem.reason

/-- What a first byte asks for: its own share of the code point, the number of bytes that
follow, and the range of the first of them. -/
structure Lead where
  bits : Nat
  following : Nat
  low : Nat
  high : Nat

/-- The reading of a first byte; the bytes `80` to `c1` and those above `f4` start nothing. -/
def lead? (b : Nat) : Option Lead :=
  if b < 0x80 then some ⟨b, 0, 0x80, 0xbf⟩
  else if b < 0xc2 then none
  else if b < 0xe0 then some ⟨b - 0xc0, 1, 0x80, 0xbf⟩
  else if b < 0xf0 then
    some ⟨b - 0xe0, 2, if b = 0xe0 then 0xa0 else 0x80, if b = 0xed then 0x9f else 0xbf⟩
  else if b < 0xf5 then
    some ⟨b - 0xf0, 3, if b = 0xf0 then 0x90 else 0x80, if b = 0xf4 then 0x8f else 0xbf⟩
  else none

/-- Where reading stands: between characters, or inside one. -/
inductive State where
  | between
  | inside (first : UInt8) (taken bits following low high : Nat)

/-- Reads on in a list of bytes of which `position` have been read before and have given the
characters `done`, the last one first. -/
def decodeFrom : State → Nat → List Char → List UInt8 → Except Error (List Char)
  | .between, _, done, [] => .ok done.reverse
  | .inside first taken _ _ _ _, position, _, [] =>
    .error ⟨.unexpectedEnd, first, position - taken, taken⟩
  | .between, position, done, b :: rest =>
    match lead? b.toNat with
    | none => .error ⟨.invalidStart, b, position, 1⟩
    | some lead =>
      if lead.following = 0 then decodeFrom .between (position + 1)
        (Char.ofNat lead.bits :: done) rest
      else
        decodeFrom (.inside b 1 lead.bits lead.following lead.low lead.high)
          (position + 1) done rest
  | .inside first taken bits following low high, position, done, b :: rest =>
    if low ≤ b.toNat ∧ b.toNat ≤ high then
      let joined := bits * 64 + (b.toNat - 0x80)
      if following = 1 then decodeFrom .between (position + 1) (Char.ofNat joined :: done) rest
      else
        decodeFrom (.inside first (taken + 1) joined (following - 1) 0x80 0xbf)
          (position + 1) done rest
    else .error ⟨.invalidContinuation, first, position - taken, taken⟩

/-- The characters that a list of bytes encodes. -/
def decode (bytes : List UInt8) : Except Error (List Char) :=
  decodeFrom .between 0 [] bytes

end SceneScript.Text.Utf8

namespace SceneScript.Text

/-! ## Line ends

Files come from editors of every system, so a carriage return, with or without a line feed after it,
is read as a line feed. -/

/-- Adds a character to a text kept last character first; the flag tells whether the character
before it was a carriage return. -/
def addUnified : List Char × Bool → Char → List Char × Bool
  | (done, _), '\r' => ('\n' :: done, true)
  | (done, true), '\n' => (done, false)
  | (done, _), c => (c :: done, false)

/-- The characters of a file with every line end written as a line feed. -/
def unifyLineEnds (chars : List Char) : List Char :=
  (chars.foldl addUnified ([], false)).1.reverse

end SceneScript.Text
