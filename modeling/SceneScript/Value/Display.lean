import SceneScript.Number.Rendering
import SceneScript.Text.Numeral
import SceneScript.Text.Quoted
import SceneScript.Value.Basic

/-!
# Values as text

Messages quote values back to the author in two forms.  The literal form spells a value out so
that its type can be seen: texts are quoted, lists and objects are bracketed.  The display form
is the same but for a text, which stands as it is.

A value that holds an integer of too many digits, at any depth, has neither form.
-/

namespace SceneScript

/-- A scalar spelled out. -/
def Scalar.literal : Scalar → Except TooManyDigits String
  | .null => .ok "None"
  | .bool true => .ok "True"
  | .bool false => .ok "False"
  | .int n => decimal n
  | .float x => .ok (FloatStyle.standard.render x)
  | .str s => .ok (Text.quoted s)

/-- A scalar as plain text. -/
def Scalar.display : Scalar → Except TooManyDigits String
  | .str s => .ok s
  | s => s.literal

/-- Texts with a comma between each two. -/
def commaList (texts : List String) : String := ", ".intercalate texts

namespace Value

mutual
/-- A value spelled out. -/
def literal : Value → Except TooManyDigits String
  | .scalar s => s.literal
  | .list items => do return "[" ++ commaList (← literals items) ++ "]"
  | .object fields => do return "\x7b" ++ commaList (← fieldLiterals fields) ++ "\x7d"

/-- The items of a list spelled out. -/
def literals : List Value → Except TooManyDigits (List String)
  | [] => .ok []
  | v :: rest => do
    let text ← literal v
    return text :: (← literals rest)

/-- The fields of an object spelled out, each key with its value. -/
def fieldLiterals : List (Scalar × Value) → Except TooManyDigits (List String)
  | [] => .ok []
  | (key, v) :: rest => do
    let name ← key.literal
    let text ← literal v
    return (name ++ ": " ++ text) :: (← fieldLiterals rest)
end

/-- A value as plain text. -/
def display : Value → Except TooManyDigits String
  | .scalar s => s.display
  | v => v.literal

end Value

end SceneScript
