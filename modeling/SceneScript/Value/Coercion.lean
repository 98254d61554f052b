import SceneScript.Fault
import SceneScript.Value.Equality

/-!
# Reading values as lists, tables and arguments

Where a list is wanted, a text serves as the list of its characters and an object as the list of
its keys.  Where named arguments are wanted, a list of pairs serves as well as an object.  Where
a table is searched, a text is a table of its own parts.  Each reading says which faults it can
have, and in which order they are met.
-/

namespace SceneScript.Value

/-- The items of a value that can be gone through one by one. -/
def elements : Value → Except Fault (List Value)
  | .list items => .ok items
  | .str s => .ok (s.toList.map fun c => .str (String.singleton c))
  | .object fields => .ok (fields.map fun field => .scalar field.1)
  | _ => .error .wrongType

/-- The arguments that a list of pairs gives, after those already given; `index` counts the
pairs. -/
def fieldsOfPairs (index : Nat) (done : Fields) : List Value → Except Fault Fields
  | [] => .ok done
  | pair :: rest => do
    match ← pair.elements with
    | [key, value] =>
      match key.key? with
      | some name => fieldsOfPairs (index + 1) (Fields.put done name value) rest
      | none => .error .wrongType
    | other => .error (.malformed (.notAPair index other.length))

/-- The named arguments that a value gives: none if it does not count as given, else the fields
of an object or the pairs of a sequence. -/
def toFields (v : Value) : Except Fault Fields :=
  if v.truthy then
    match v with
    | .object fields => .ok fields
    | other => do fieldsOfPairs 0 [] (← other.elements)
  else .ok []

/-- The argument under a name that may be any value, in arguments that may be any value; only an
object has arguments, and only a scalar names one. -/
def argument (args name default : Value) : Except Fault Value :=
  match args, name.key? with
  | .object fields, some key => .ok (((Fields.find? fields key).getD .null).orElse default)
  | .object _, none => .error .wrongType
  | _, _ => .error .unsupported

/-- The bytes of a list of values. -/
def toBytes : List Value → Except Fault (List UInt8)
  | [] => .ok []
  | v :: rest =>
    match v.integer?, v.byte? with
    | none, _ => .error .wrongType
    | some _, none => .error (.malformed .byteOutOfRange)
    | some _, some b => do return b :: (← toBytes rest)

/-- The first index at which the characters of `part` stand in a list of characters, counted from
`index`. -/
def substringFrom? (part : List Char) (index : Nat) : List Char → Option Nat
  | [] => if part.isEmpty then some index else none
  | c :: rest =>
    if part.isPrefixOf (c :: rest) then some index else substringFrom? part (index + 1) rest

/-- The first index at which a value stands in a table: an item of a list, or a part of a text. -/
def searchTable (table wanted : Value) : Except Fault (Option Nat) :=
  match table with
  | .list items => .ok (indexIn? items wanted)
  | .str s =>
    match wanted with
    | .str part => .ok (substringFrom? part.toList 0 s.toList)
    | _ => .error .wrongType
  | _ => .error .unsupported

end SceneScript.Value
