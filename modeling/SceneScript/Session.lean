import SceneScript.Generation.Generator
import SceneScript.Script.Reading

/-!
# Compiler sessions

A session compiles scripts one after the other.  It keeps the scene whose actors the scripts
refer to, the warnings of all compilations, and, if it is verbose, a transcript of what it is
doing.  Each compilation has a generator of its own, to which the session is attached: it
records every warning when the generator does.  So what a compilation leaves behind is nothing
but its warnings and its part of the transcript.
-/

namespace SceneScript

/-- The state of a compiler. -/
structure Session where
  verbose : Bool := false
  /-- The scene whose actors scripts refer to. -/
  scene : Value := .null
  /-- All warnings so far. -/
  warnings : List String := []
  /-- What was told on the way. -/
  transcript : String := ""

namespace Session

/-- Adds a line to the transcript of a verbose session. -/
def tell (line : String) (session : Session) : Session :=
  if session.verbose then { session with transcript := session.transcript ++ line ++ "\n" }
  else session

/-- Reports progress. -/
def log (message : String) (session : Session) : Session := session.tell ("[scriptc] " ++ message)

/-- Records a warning. -/
def warn (code message : String) (session : Session) : Session :=
  let warning := code ++ ": " ++ message
  { session with warnings := session.warnings ++ [warning] }.tell ("[scriptc] Warning: " ++ warning)

/-- A session listens to the warnings of a generator. -/
def listener : Listener Session where
  warned w := warn w.code w.message

end Session

/-- A step of a session, which leaves a state whether it succeeds or fails. -/
abbrev Compilation (α : Type) := EStateM Fault Session α

namespace Compilation

/-- Reports progress. -/
def log (message : String) : Compilation Unit := modify (Session.log message)

/-- Records a warning. -/
def warn (code message : String) : Compilation Unit := modify (Session.warn code message)

/-- Turns a result into a step. -/
def ofResult {α : Type} : Except Fault α → Compilation α
  | .ok a => pure a
  | .error fault => throw fault

/-- Generates with a new generator to which the session is attached. -/
def generate (scope : Scope) (script : Script) : Compilation Program := fun session =>
  match scope.layOut Session.listener.steps script ⟨{}, session⟩ with
  | .ok program state => .ok program state.attached
  | .error fault state => .error fault state.attached

/-- The name of a scene as it is told; a scene that does not count as given is not named. -/
def sceneText (scene : Value) : Except TooManyDigits String :=
  if scene.truthy then do return " for scene " ++ (← scene.display) else .ok ""

/-- The start of a compilation, as it is told. -/
def startMessage (scene : Value) (script : Script) : Except TooManyDigits String := do
  return "Compiling " ++ toString (Event.countAll script) ++ " events" ++ (← sceneText scene)

/-- Compiles a script against symbol tables. -/
def compileScript (script : Script) (symbols : Symbols) : Compilation Program := do
  let scene := (← get).scene
  log (← ofResult (Fault.limited (startMessage scene script)))
  let scope ← ofResult (Scope.ofScene symbols scene)
  let program ← generate scope script
  log ("  Generated " ++ toString program.length ++ " bytes")
  return program

/-- Compiles a script and tables that are given as values. -/
def compileValues (script tables : Value) : Compilation Program := do
  let events ← ofResult (readScript script)
  let symbols ← ofResult (Symbols.ofValue tables)
  compileScript events symbols

end Compilation

end SceneScript
