import SceneScript.CommandLine.Run

/-!
# The program

Looks up what the paths of a command line lead to, runs the command line on that, and prints and
writes what came out.
-/

namespace SceneScript

/-- Looks up what stands at a place. -/
def Disk.lookUp (disk : Disk) (place : Place) : IO Disk := do
  try
    let bytes ← IO.FS.readBinFile place.path
    return disk.write place bytes.toList
  catch _ =>
    try
      let real ← IO.FS.realPath place.path
      return if ← real.isDir then disk.addDirectory place else disk
    catch _ => return disk

/-- The paths that a command line names. -/
def CommandLine.paths (words : List String) : List String :=
  match parseOptions words with
  | .error _ => []
  | .ok o =>
    let input := o.input.getD ""
    let named := [o.tables, o.output].filterMap fun argument => argument.bind (·.path.toOption)
    input :: (defaultOutput input).toOption.toList ++ named

/-- Writes the files of a disk that another does not hold. -/
def Disk.writeChanges (before after : Disk) : IO Unit := do
  for (place, bytes) in after.files do
    if before.files.lookup place != some bytes then
      IO.FS.writeBinFile place.path (ByteArray.mk bytes.toArray)

/-- What is told about a fault that ends a run. -/
def Fault.describe : Fault → String
  | .malformed cause => cause.message
  | .compile error =>
    match error.message with
    | .ok text => text
    | .error e => e.message
  | .isDirectory => "a file is needed where there is a directory"
  | .notDirectory => "a directory is needed where there is a file"
  | .nameTooLong => "a path or a name in it is too long"
  | .fileNotFound path => "no file " ++ path
  | .wrongType => "a value has the wrong type"
  | .unsupported => "a value does not have the operation"
  | .outOfRange => "a position lies outside its list"
  | .shortWord => "a word is cut short"
  | .overflow => "a number is too large"

end SceneScript

open SceneScript in
/-- Runs the command line. -/
def main (words : List String) : IO UInt32 := do
  let places := (CommandLine.paths words).flatMap Place.along
  let disk ← places.eraseDups.foldlM Disk.lookUp {}
  let outcome := CommandLine.run "scriptc" words disk
  disk.writeChanges outcome.disk
  IO.print outcome.stdout
  IO.eprint outcome.stderr
  match outcome.exit with
  | .ok code => return UInt32.ofNat code
  | .error fault =>
    IO.eprintln ("scriptc: " ++ fault.describe)
    return 1
