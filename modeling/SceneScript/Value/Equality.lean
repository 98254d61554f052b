import SceneScript.Value.Basic

/-!
# Equality of values

Two notions are in use.  `Value.same` compares what stands inside a list, under a key or in a
searched table: numbers by value, lists item by item, objects by content whatever the order of
their fields.  `Value.equals` is the comparison of two loose values; it differs only in that an
undefined number is not equal to itself.
-/

namespace SceneScript.Value

mutual
/-- Whether two values are the same element of a list or table. -/
def same : Value → Value → Bool
  | .scalar a, .scalar b => a.same b
  | .list xs, .list ys => sameItems xs ys
  | .object xs, .object ys => xs.length == ys.length && sameFields xs ys
  | _, _ => false

/-- Whether two lists have the same items in the same order. -/
def sameItems : List Value → List Value → Bool
  | [], [] => true
  | x :: xs, y :: ys => same x y && sameItems xs ys
  | _, _ => false

/-- Whether each field of the first object has the same value in the second. -/
def sameFields : List (Scalar × Value) → Fields → Bool
  | [], _ => true
  | (key, x) :: xs, ys =>
    (match Fields.find? ys key with
      | some y => same x y
      | none => false) && sameFields xs ys
end

/-- Whether two loose values are equal. -/
def equals : Value → Value → Bool
  | .float x, .float y => x.equals y
  | a, b => same a b

/-- The first index in a list at which a value stands. -/
def indexIn? (items : List Value) (wanted : Value) : Option Nat :=
  items.findIdx? fun item => same item wanted

end SceneScript.Value
