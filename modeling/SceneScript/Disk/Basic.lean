import SceneScript.Disk.Path

/-!
# A disk as an explicit map

The files that a compilation reads and writes are held in a map from places to contents, so that
a whole run of the command line is a function from one disk to another.

A look-up walks down the parts of a path: each part but the last has to be a directory, a single
dot stays, and two dots go up.
-/

namespace SceneScript

/-- The names that lead from the working directory to a file or directory.  A place above the
working directory starts with two dots, and a place found from the root starts with a slash. -/
abbrev Place := List String

namespace Place

/-- Whether a place is the root, the working directory or a directory above it. -/
def isAbove (place : Place) : Bool := place.all (· == "..") || place == ["/"]

/-- Where a path starts: at the root or at the working directory. -/
def start (path : String) : Place := if path.startsWith "/" then ["/"] else []

/-- The place one part further. -/
def step (place : Place) (part : String) : Place :=
  if part == "" || part == "." then place
  else if part == ".." then
    if place == ["/"] then place
    else if isAbove place then place ++ [".."]
    else place.dropLast
  else place ++ [part]

/-- The places that the parts of a path lead through, from one place on. -/
def through (place : Place) : List String → List Place
  | [] => [place]
  | part :: rest => place :: through (step place part) rest

/-- The places that a path leads through, the last of which it names. -/
def along (path : String) : List Place := through (start path) (Path.parts path)

/-- A path that leads to a place. -/
def path (place : Place) : String :=
  match place with
  | [] => "."
  | "/" :: names => "/" ++ "/".intercalate names
  | names => "/".intercalate names

end Place

/-- The contents of a disk.  A directory that holds something need not be listed. -/
structure Disk where
  files : List (Place × List UInt8) := []
  directories : List Place := []

/-- What stands at a place. -/
inductive Entry where
  | file (bytes : List UInt8)
  | directory
  | missing

namespace Disk

/-- What stands at a place. -/
def entry (disk : Disk) (place : Place) : Entry :=
  match disk.files.lookup place with
  | some bytes => .file bytes
  | none =>
    if place.isAbove || disk.directories.any place.isPrefixOf ||
        disk.files.any (fun file => place.isPrefixOf file.1) then .directory
    else .missing

/-- Puts a file at a place, instead of the one that stood there. -/
def write (disk : Disk) (place : Place) (bytes : List UInt8) : Disk :=
  { disk with files := disk.files.filter (fun file => file.1 != place) ++ [(place, bytes)] }

/-- Puts a directory at a place. -/
def addDirectory (disk : Disk) (place : Place) : Disk :=
  { disk with directories := disk.directories ++ [place] }

/-- The number of bytes that a name may have. -/
def nameLimit : Nat := 255

/-- The number of bytes that a path may have. -/
def pathLimit : Nat := 4095

/-- Goes one part further on the way of `path`, which a directory allows. -/
def step (disk : Disk) (path : String) (place : Place) (part : String) : Except Fault Place :=
  match disk.entry place with
  | .file _ => .error .notDirectory
  | .missing => .error (.fileNotFound path)
  | .directory =>
    if nameLimit < part.utf8ByteSize then .error .nameTooLong else .ok (place.step part)

/-- Goes along the parts of a path. -/
def walk (disk : Disk) (path : String) (parts : List String) : Except Fault Place :=
  parts.foldlM (disk.step path) (Place.start path)

/-- Refuses the texts that are no path at all. -/
def usablePath (path : String) : Except Fault Unit :=
  if '\x00' ∈ path.toList then .error (.malformed .pathWithNull)
  else if path == "" then .error (.fileNotFound path)
  else if pathLimit < path.utf8ByteSize then .error .nameTooLong
  else .ok ()

/-- The bytes of a file. -/
def read (disk : Disk) (path : String) : Except Fault (List UInt8) := do
  usablePath path
  match disk.entry (← disk.walk path (Path.parts path)) with
  | .file bytes => return bytes
  | .directory => throw .isDirectory
  | .missing => throw (.fileNotFound path)

/-- The place at which a file can be written.  A path that ends in a slash means a directory. -/
def placeForWriting (disk : Disk) (path : String) : Except Fault Place := do
  usablePath path
  if path.endsWith "/" then
    let parts := ((Path.parts path).reverse.dropWhile (· == "")).reverse
    discard (disk.walk path (parts.dropLast ++ ["."]))
    throw .isDirectory
  let place ← disk.walk path (Path.parts path)
  match disk.entry place with
  | .directory => throw .isDirectory
  | .file _ | .missing => return place

end Disk

end SceneScript
