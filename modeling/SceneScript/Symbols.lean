import SceneScript.Value.Coercion

/-!
# Symbol tables

A project lists its strings, flags, scenes and music tracks, and for each scene its actors.
Scripts name entries, programs number them.  A string or flag has to be in its table; a scene,
track or actor may have been deleted since the script was written, and then the look-up says so
and the caller falls back.

An entry of the scene, music and actor tables is an id, or an object that holds its id under
`id`; strings and flags stand for themselves.
-/

namespace SceneScript

/-- The tables of a project, in index order. -/
structure Symbols where
  strings : List Value := []
  flags : List Value := []
  scenes : List Value := []
  music : List Value := []
  /-- For each scene its actors. -/
  actors : List (Scalar × List Value) := []

namespace Symbols

/-! ## Reading the tables -/

/-- A section of the tables: empty if it does not count as given. -/
def readSection (v : Value) : Except Fault (List Value) :=
  (v.orElse (.list [])).elements

/-- The actors of each scene. -/
def readActors : Fields → Except Fault (List (Scalar × List Value))
  | [] => .ok []
  | (scene, entries) :: rest => do
    let actors ← entries.elements
    return (scene, actors) :: (← readActors rest)

/-- The tables that a value describes. -/
def ofValue : Value → Except Fault Symbols
  | .object fields =>
    match (Fields.get fields "actors").orElse (.object []) with
    | .object scenes => do
      let strings ← readSection (Fields.get fields "strings")
      let flags ← readSection (Fields.get fields "flags")
      let sceneList ← readSection (Fields.get fields "scenes")
      let music ← readSection (Fields.get fields "music")
      let actors ← readActors scenes
      return ⟨strings, flags, sceneList, music, actors⟩
    | _ => .error (.malformed .actorsNotObject)
  | _ => .error (.malformed .tablesNotObject)

/-- The actors of a scene; no scene and an unknown scene have none. -/
def sceneActors (symbols : Symbols) (scene : Value) : Except Fault (List Value) :=
  if scene.isNull then .ok []
  else match scene.key? with
    | some key => .ok (((symbols.actors.find? fun entry => entry.1.same key).map Prod.snd).getD [])
    | none => .error .wrongType

/-! ## Looking entries up -/

/-- The id of an entry. -/
def entryId : Value → Value
  | .object fields => Fields.get fields "id"
  | v => v

/-- The first index of an entry with the given id. -/
def entryIndex? (entries : List Value) (wanted : Value) : Option Nat :=
  entries.findIdx? fun entry => (entryId entry).equals wanted

/-- The text that is looked up for an event's text: an empty text is stored as a single space. -/
def storedText (text : Value) : Value := text.orElse (.str " ")

/-- The index of a text in a string table. -/
def stringIndex (strings : List Value) (text : Value) : Except Fault Nat :=
  match Value.indexIn? strings (storedText text) with
  | some index => .ok index
  | none => .error (.compile (.stringNotFound (storedText text)))

/-- The index of a flag in a flag table. -/
def flagIndex (flags : List Value) (flag : Value) : Except Fault Nat :=
  match Value.indexIn? flags flag with
  | some index => .ok index
  | none => .error (.compile (.flagNotFound flag))

/-- The number of an actor in its scene, from one; zero is the actor that runs the script. -/
def actorNumber (actors : List Value) (id : Value) : Nat :=
  match entryIndex? actors id with
  | some index => index + 1
  | none => 0

/-- The index of a music track; the first track stands in for one that is gone. -/
def trackIndex (music : List Value) (id : Value) : Nat := (entryIndex? music id).getD 0

/-! ## Tables that are not yet known to be lists -/

/-- The index of a text in a table of any form. -/
def searchString (table text : Value) : Except Fault Nat := do
  match ← table.searchTable (storedText text) with
  | some index => return index
  | none => throw (.compile (.stringNotFound (storedText text)))

/-- The index of a flag in a table of any form. -/
def searchFlag (table flag : Value) : Except Fault Nat := do
  match ← table.searchTable flag with
  | some index => return index
  | none => throw (.compile (.flagNotFound flag))

end Symbols

end SceneScript
