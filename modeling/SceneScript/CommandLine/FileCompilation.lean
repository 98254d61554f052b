import SceneScript.Bytecode.Listing
import SceneScript.CommandLine.SwitchArgument
import SceneScript.Disk.Basic
import SceneScript.Disk.Path
import SceneScript.Session

/-!
# Compiling a file

A script file and a tables file are read, compiled, and the program is written; only then is a
listing printed.  Nothing is written before the program is complete, so a failure leaves the
disk as it was.
-/

namespace SceneScript

/-- The files of a compilation and whether to list the program. -/
structure FileJob where
  input : String
  tables : SwitchArgument
  /-- Where the program goes. -/
  output : SwitchArgument
  listing : Bool

/-- A session with a disk to work on and what was printed. -/
structure Workshop where
  session : Session
  disk : Disk
  printed : String := ""

/-- A step of file compilation, which leaves a state whether it succeeds or fails. -/
abbrev FileStep (α : Type) := EStateM Fault Workshop α

namespace FileStep

/-- A step of the session. -/
def ofCompilation {α : Type} (step : Compilation α) : FileStep α := fun state =>
  match step state.session with
  | .ok a session => .ok a { state with session := session }
  | .error fault session => .error fault { state with session := session }

/-- Reports progress. -/
def log (message : String) : FileStep Unit := ofCompilation (Compilation.log message)

/-- Turns a result into a step. -/
def ofResult {α : Type} : Except Fault α → FileStep α
  | .ok a => pure a
  | .error fault => throw fault

/-- The value in a JSON file given as bytes. -/
def valueOfBytes (bytes : List UInt8) : Except Fault Value :=
  match Text.Utf8.decode bytes with
  | .error e => .error (.malformed (.notUtf8 e))
  | .ok chars =>
    match Json.parse (Text.unifyLineEnds chars) with
    | .error (.notJson e) => .error (.malformed (.notJson e))
    | .error (.tooLong e) => .error (.malformed (.tooManyDigits e))
    | .ok v => .ok v

/-- Reads a JSON file. -/
def readJson (file : SwitchArgument) : FileStep Value := do
  log ("Reading " ++ file.display ++ "...")
  let bytes ← ofResult ((← get).disk.read (← ofResult file.path))
  ofResult (valueOfBytes bytes)

/-- Writes a program to a file. -/
def writeProgram (file : SwitchArgument) (program : Program) : FileStep Unit := do
  log ("Writing " ++ file.display ++ "...")
  let place ← ofResult ((← get).disk.placeForWriting (← ofResult file.path))
  modify fun state => { state with disk := state.disk.write place program }

/-- Prints a line. -/
def print (line : String) : FileStep Unit :=
  modify fun state => { state with printed := state.printed ++ line ++ "\n" }

/-- Compiles the files of a job. -/
def compileFile (job : FileJob) : FileStep Unit := do
  let script ← readJson (.word job.input)
  let tables ← readJson job.tables
  let program ← ofCompilation (Compilation.compileValues script tables)
  writeProgram job.output program
  if job.listing then print (← ofResult (listing program))
  log ("Compilation successful: " ++ toString program.length ++ " bytes")

end FileStep

/-- Where the program of a job goes if nothing else is said: beside the input, with its own
suffix. -/
def defaultOutput (input : String) : Except Fault String := do
  return ((← (Path.ofString input).withSuffix ".bin")).toText

/-- What is told about a fault that the command line reports.  Any other fault ends it, and so
does an error that cannot be told, with the integer that is too long for it. -/
def Fault.report (verbose : Bool) : Fault → Except Fault (List String)
  | .fileNotFound path => .ok ["Error: File not found: " ++ path]
  | .malformed (.notJson error) => .ok ["Invalid JSON: " ++ error.message]
  | .compile error => do return ["Compilation error: " ++ (← Fault.limited error.message)]
  | .malformed cause =>
    .ok (("Invalid script: " ++ cause.message) :: if verbose then ["<traceback>"] else [])
  | fault => .error fault

end SceneScript
