import SceneScript.Fault

/-!
# Arguments of switches

Two dashes are a mark and never an argument.  A switch that has them attached (`--scene=--`) is
given all the same, but with an argument that holds no word: where such an argument is shown it
is an empty list, it names no scene, and it cannot be opened as a file.
-/

namespace SceneScript

/-- What a switch was given. -/
inductive SwitchArgument where
  | word (text : String)
  | empty
  deriving DecidableEq

namespace SwitchArgument

/-- The argument that attached text gives. -/
def ofText (text : String) : SwitchArgument := if text == "--" then .empty else .word text

/-- An argument as a value. -/
def value : SwitchArgument → Value
  | .word text => .str text
  | .empty => .list []

/-- An argument as it is shown. -/
def display : SwitchArgument → String
  | .word text => text
  | .empty => "[]"

/-- The path that an argument names. -/
def path : SwitchArgument → Except Fault String
  | .word text => .ok text
  | .empty => .error .wrongType

end SwitchArgument

end SceneScript
