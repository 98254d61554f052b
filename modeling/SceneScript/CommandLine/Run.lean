import SceneScript.CommandLine.FileCompilation
import SceneScript.CommandLine.Help
import SceneScript.CommandLine.Options

/-!
# Running the command line

A run takes the words of the command line and a disk, and gives what is printed on either
stream, the disk afterwards, and an exit code: zero for success and for help, one for a
compilation that failed, two for a wrong use.  A fault that is not reported to the author ends
the run without a code.
-/

namespace SceneScript.CommandLine

/-- The outcome of a run. -/
structure Outcome where
  exit : Except Fault Nat
  stdout : String := ""
  stderr : String := ""
  disk : Disk

/-- Compiles as the options say. -/
def runJob (job : FileJob) (session : Session) (disk : Disk) : Outcome :=
  match FileStep.compileFile job { session := session, disk := disk } with
  | .ok _ state => ⟨.ok 0, state.printed, state.session.transcript, state.disk⟩
  | .error fault state =>
    match fault.report session.verbose with
    | .ok lines =>
      ⟨.ok 1, state.printed, state.session.transcript ++ String.join (lines.map (· ++ "\n")),
       state.disk⟩
    | .error unreported => ⟨.error unreported, state.printed, state.session.transcript, state.disk⟩

/-- Compiles an input file.  Without an output, the program goes beside the input. -/
def runFiles (input : String) (tables : SwitchArgument) (output : Option SwitchArgument)
    (listing : Bool) (session : Session) (disk : Disk) : Outcome :=
  match output.elim ((defaultOutput input).map .word) .ok with
  | .error fault => { exit := .error fault, disk := disk }
  | .ok output => runJob ⟨input, tables, output, listing⟩ session disk

/-- The session that options ask for. -/
def Options.session (o : Options) : Session where
  verbose := o.verbose
  scene := o.scene.elim .null SwitchArgument.value

/-- Carries out options that are complete. -/
def runOptions (o : Options) (input : String) (tables : SwitchArgument) (disk : Disk) : Outcome :=
  runFiles input tables o.output o.listing o.session disk

/-- Runs the command line of the program with the given name. -/
def run (program : String) (words : List String) (disk : Disk) : Outcome :=
  match parseOptions words with
  | .error .help => { exit := .ok 0, stdout := help program, disk := disk }
  | .error (.usage error) =>
    { exit := .ok 2
      stderr := usage program ++ program ++ ": error: " ++ error.message ++ "\n"
      disk := disk }
  | .ok o => runOptions o (o.input.getD "") (o.tables.getD .empty) disk

end SceneScript.CommandLine
