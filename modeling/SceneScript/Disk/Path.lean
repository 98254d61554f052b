import SceneScript.Fault

/-!
# Paths

A path is written with slashes.  Its parts are names; empty parts and single dots say nothing
and are left out when a path is taken apart.  The suffix of a name is what follows its last dot,
with the dot, unless that dot is the first or the last character of the name.
-/

namespace SceneScript

/-- A path taken apart: what it starts from, and the names after that. -/
structure Path where
  /-- Empty for a path from the working directory, else one slash or two. -/
  root : String
  names : List String
  deriving DecidableEq

namespace Path

/-- What stands between the slashes of a path. -/
def parts (s : String) : List String := (s.toList.splitOn '/').map String.ofList

/-- The slashes that a path starts with, as they are kept: two stay two, and more count as one. -/
def rootOf (chars : List Char) : String :=
  match (chars.takeWhile (· == '/')).length with
  | 0 => ""
  | 2 => "//"
  | _ => "/"

/-- Takes a path apart. -/
def ofString (s : String) : Path where
  root := rootOf s.toList
  names := (parts s).filter fun part => part != "" && part != "."

/-- Puts a path together; the path without names is the working directory. -/
def toText (p : Path) : String :=
  if p.root == "" && p.names.isEmpty then "." else p.root ++ "/".intercalate p.names

/-- A name without its suffix. -/
def stem (name : String) : String :=
  let chars := name.toList
  let suffix := (chars.reverse.takeWhile (· != '.')).length + 1
  if 1 < suffix ∧ suffix < chars.length then String.ofList (chars.take (chars.length - suffix))
  else name

/-- A path with another suffix on its last name. -/
def withSuffix (p : Path) (suffix : String) : Except Fault Path :=
  match p.names.getLast? with
  | none => .error (.malformed (.pathWithoutName p.toText))
  | some name => .ok { p with names := p.names.dropLast ++ [stem name ++ suffix] }

end Path

end SceneScript
