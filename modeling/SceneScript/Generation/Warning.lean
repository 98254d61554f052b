import SceneScript.Fault
import SceneScript.Script.Kind

/-!
# Warnings

Generation goes on where an actor, track or scene is gone, where an encounter is no number, and
where a kind of event has no code.  Each such fallback is recorded in words.  The words quote
what the event asked for, so there are none if that holds an integer of too many digits, and
then generation cannot fall back: it fails.  A `Warning` is a fallback that has its words.
-/

namespace SceneScript

/-- What generation does in place of what an event asks for. -/
inductive Fallback where
  | actorNotInScene (id : Value)
  | musicNotFound (id : Value)
  | sceneNotFound (id : Value)
  | invalidEncounter (encounter : Value)
  | noBytecode (kind : EventKind)

namespace Fallback

/-- The code of a fallback. -/
def code : Fallback → String
  | .actorNotInScene _ => "SC0001"
  | .musicNotFound _ => "SC0002"
  | .sceneNotFound _ => "SC0003"
  | .invalidEncounter _ => "SC0004"
  | .noBytecode _ => "SC0005"

/-- A fallback in words. -/
def wording : Fallback → Except TooManyDigits String
  | .actorNotInScene id => do
    return "Actor '" ++ (← id.display) ++ "' not in scene, using script actor"
  | .musicNotFound id => do
    return "Music '" ++ (← id.display) ++ "' not found, playing first track"
  | .sceneNotFound id => do
    return "Scene '" ++ (← id.display) ++ "' not found, scene switch dropped"
  | .invalidEncounter encounter => do
    return "Invalid encounter " ++ (← encounter.literal) ++ ", battle dropped"
  | .noBytecode kind => .ok (kind.command ++ " has no bytecode and was skipped")

end Fallback

/-- A fallback that generation took, and what is told about it. -/
structure Warning where
  cause : Fallback
  message : String
  told : cause.wording = .ok message

/-- The warning about a fallback, if it can be told. -/
def Fallback.warning (cause : Fallback) : Except Fault Warning :=
  match told : cause.wording with
  | .ok message => .ok ⟨cause, message, told⟩
  | .error e => .error (.malformed (.tooManyDigits e))

namespace Warning

/-- The code of a warning. -/
def code (w : Warning) : String := w.cause.code

/-- A warning as it is recorded: its code and what it tells. -/
def text (w : Warning) : String := w.code ++ ": " ++ w.message

end Warning

end SceneScript
