import SceneScript.Script.Kind
import SceneScript.Value.Display

/-!
# Events

A script is a list of events.  An event has a kind and named arguments; a conditional event also
carries the two bodies that run for the two outcomes of its test.
-/

namespace SceneScript

/-- A step of a script. -/
inductive Event where
  | plain (kind : EventKind) (args : Fields)
  | conditional (kind : EventKind) (args : Fields) (whenTrue whenFalse : List Event)

/-- An authored script. -/
abbrev Script := List Event

namespace Event

/-- A test that the flag is set. -/
def whenSet (flag : Value) (whenTrue whenFalse : Script) : Event :=
  .conditional .ifTrue [(.str "flag", flag)] whenTrue whenFalse

/-- A test that the flag is clear; the first body runs when it is. -/
def whenClear (flag : Value) (whenTrue whenFalse : Script) : Event :=
  .conditional .ifFalse [(.str "flag", flag)] whenTrue whenFalse

/-- The kind of an event. -/
def kind : Event → EventKind
  | .plain kind _ => kind
  | .conditional kind _ _ _ => kind

/-- The arguments of an event. -/
def args : Event → Fields
  | .plain _ args => args
  | .conditional _ args _ _ => args

/-- The bodies of an event for a true and for a false outcome; a plain event has empty ones. -/
def bodies : Event → Script × Script
  | .plain _ _ => ([], [])
  | .conditional _ _ whenTrue whenFalse => (whenTrue, whenFalse)

mutual
/-- The number of events in an event, itself included. -/
def count : Event → Nat
  | .plain _ _ => 1
  | .conditional _ _ whenTrue whenFalse => 1 + (countAll whenTrue + countAll whenFalse)

/-- The number of events in a script, those in bodies included. -/
def countAll : List Event → Nat
  | [] => 0
  | event :: rest => count event + countAll rest
end

mutual
/-- An event spelled out. -/
def literal : Event → Except TooManyDigits String
  | .plain kind args => do return kind.name ++ "(" ++ (← (Value.object args).literal) ++ ")"
  | .conditional kind args whenTrue whenFalse => do
    let shown ← (Value.object args).literal
    let trueTexts ← literals whenTrue
    let falseTexts ← literals whenFalse
    return kind.name ++ "(" ++ shown ++ ", true=[" ++ commaList trueTexts ++ "]" ++
      ", false=[" ++ commaList falseTexts ++ "])"

/-- The events of a script spelled out. -/
def literals : List Event → Except TooManyDigits (List String)
  | [] => .ok []
  | event :: rest => do
    let text ← literal event
    return text :: (← literals rest)
end

/-- A script spelled out. -/
def listLiteral (script : Script) : Except TooManyDigits String := do
  return "[" ++ commaList (← literals script) ++ "]"

end Event

end SceneScript
