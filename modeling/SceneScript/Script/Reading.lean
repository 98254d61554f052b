import SceneScript.Script.Event
import SceneScript.Value.Coercion

/-!
# Reading scripts

A script file holds a list of events, or an object with such a list under `script`.  An event is
an object with a `command`, arguments under `args` and, if the command is a conditional one, two
bodies under `true` and `false`, each of which is again read as a script.  A part that does not
count as given (null, false, zero, or anything empty) is read as an empty one; at the outside,
only a list or an object will do.

The first fault in reading order is the one that is reported.
-/

namespace SceneScript

/-- The kind of event that a command names. -/
def EventKind.ofValue : Value → Except Fault EventKind
  | command@(.str s) =>
    match EventKind.ofCommand? s with
    | some kind => .ok kind
    | none => .error (.malformed (.commandUnknown command))
  | command => .error (.malformed (.commandUnknown command))

/-- Kind and arguments of an event that is given as an object. -/
def readHeader (fields : Fields) : Except Fault (EventKind × Fields) :=
  let command := Fields.get fields "command"
  if command.isNull then .error (.malformed (.commandMissing (.object fields)))
  else do
    let kind ← EventKind.ofValue command
    let args ← (Fields.get fields "args").toFields
    return (kind, args)

mutual
/-- The script that a value describes. -/
def readScript : Value → Except Fault Script
  | .list items => readEvents items
  | .object fields => readWrapped fields
  | .scalar s => .error (.malformed (.scriptNotList s.typeName))

/-- The script under `script` in an object. -/
def readWrapped : List (Scalar × Value) → Except Fault Script
  | [] => .ok []
  | (key, v) :: rest => if key.same (.str "script") then readListed v else readWrapped rest

/-- The script that a list describes; no other form is taken here. -/
def readListed : Value → Except Fault Script
  | .list items => readEvents items
  | v => if v.truthy then .error (.malformed (.scriptNotList v.typeName)) else .ok []

/-- The events of a list. -/
def readEvents : List Value → Except Fault Script
  | [] => .ok []
  | v :: rest => do
    let event ← readEvent v
    let events ← readEvents rest
    return event :: events

/-- The event that a value describes. -/
def readEvent : Value → Except Fault Event
  | .object fields => do
    let (kind, args) ← readHeader fields
    if kind.isConditional then
      let whenTrue ← readBody "true" fields
      let whenFalse ← readBody "false" fields
      return .conditional kind args whenTrue whenFalse
    else return .plain kind args
  | v => .error (.malformed (.eventNotObject v.typeName))

/-- The body under a name in the object of an event. -/
def readBody (name : String) : List (Scalar × Value) → Except Fault Script
  | [] => .ok []
  | (key, v) :: rest =>
    if key.same (.str name) then if v.truthy then readScript v else .ok []
    else readBody name rest
end

end SceneScript
