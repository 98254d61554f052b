import SceneScript.Number.Binary64

/-!
# Authored values

Scripts and symbol tables arrive as data that an editor wrote, and an argument of an event may
be anything: the compiler decides for each use what it makes of it.  A `Value` is such a datum.
Its leaves are the `Scalar`s, which are also what may name a field; an object keeps its fields
in the order in which their names were first given.
-/

namespace SceneScript

/-- A datum without parts. -/
inductive Scalar where
  | null
  | bool (b : Bool)
  | int (n : Int)
  | float (x : Binary64)
  | str (s : String)
  deriving DecidableEq

/-- A datum: a scalar, a list, or an object. -/
inductive Value where
  | scalar (s : Scalar)
  | list (items : List Value)
  | object (fields : List (Scalar × Value))

/-- The fields of an object, in order. -/
abbrev Fields := List (Scalar × Value)

namespace Scalar

/-- Whether a scalar counts as given: null, false, the zeros and the empty text do not. -/
def truthy : Scalar → Bool
  | .null => false
  | .bool b => b
  | .int n => n != 0
  | .float x => !x.isZero
  | .str s => s != ""

/-- The integer that a scalar is; a truth value counts as one or zero. -/
def integer? : Scalar → Option Int
  | .bool b => some (if b then 1 else 0)
  | .int n => some n
  | _ => none

/-- The word for the type of a scalar. -/
def typeName : Scalar → String
  | .null => "NoneType"
  | .bool _ => "bool"
  | .int _ => "int"
  | .float _ => "float"
  | .str _ => "str"

/-- Whether two scalars are the same key or element.  Numbers and truth values are compared by
value across their types, and the undefined number is the same as itself. -/
def same : Scalar → Scalar → Bool
  | .null, .null => true
  | .str a, .str b => a == b
  | .float x, .float y => (x.isNaN && y.isNaN) || x.equals y
  | .float x, b => b.integer?.any x.equalsInt
  | a, .float y => a.integer?.any y.equalsInt
  | a, b => a.integer?.isSome && a.integer? == b.integer?

end Scalar

namespace Value

@[match_pattern] abbrev null : Value := .scalar .null
@[match_pattern] abbrev bool (b : Bool) : Value := .scalar (.bool b)
@[match_pattern] abbrev int (n : Int) : Value := .scalar (.int n)
@[match_pattern] abbrev float (x : Binary64) : Value := .scalar (.float x)
@[match_pattern] abbrev str (s : String) : Value := .scalar (.str s)

instance : Inhabited Value := ⟨.null⟩

/-- A natural number as a value. -/
abbrev nat (n : Nat) : Value := .int n

/-- Whether a value counts as given: empty lists and objects do not. -/
def truthy : Value → Bool
  | .scalar s => s.truthy
  | .list items => !items.isEmpty
  | .object fields => !fields.isEmpty

/-- The value itself if it counts as given, and a default otherwise. -/
def orElse (v default : Value) : Value := if v.truthy then v else default

/-- Whether a value is null. -/
def isNull : Value → Bool
  | .null => true
  | _ => false

/-- The integer that a value is; a truth value counts as one or zero. -/
def integer? : Value → Option Int
  | .scalar s => s.integer?
  | _ => none

/-- The byte that a value is: an integer from 0 to 255. -/
def byte? (v : Value) : Option UInt8 :=
  v.integer?.bind fun n => if 0 ≤ n ∧ n ≤ 255 then some (UInt8.ofNat n.toNat) else none

/-- The word for the type of a value. -/
def typeName : Value → String
  | .scalar s => s.typeName
  | .list _ => "list"
  | .object _ => "dict"

/-- The scalar that a value is; only a scalar may name a field. -/
def key? : Value → Option Scalar
  | .scalar s => some s
  | _ => none

end Value

namespace Fields

/-- The value under a key. -/
def find? (fields : Fields) (key : Scalar) : Option Value :=
  (List.find? (fun field => field.1.same key) fields).map Prod.snd

/-- The value under a name; a field that is not there reads as null. -/
def get (fields : Fields) (name : String) : Value :=
  (find? fields (.str name)).getD .null

/-- An argument by name; a value that does not count as given reads as the default. -/
def arg (args : Fields) (name : String) (default : Value) : Value := (get args name).orElse default

/-- Gives a key a value: in its old place if it has one, and else at the end. -/
def put (fields : Fields) (key : Scalar) (value : Value) : Fields :=
  if fields.any fun field => field.1.same key then
    fields.map fun field => if field.1.same key then (field.1, value) else field
  else fields ++ [(key, value)]

end Fields

end SceneScript
