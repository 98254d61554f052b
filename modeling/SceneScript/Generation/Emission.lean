import SceneScript.Bytecode.Duration
import SceneScript.Bytecode.Operand
import SceneScript.Generation.Warning
import SceneScript.Symbols

/-!
# What each event contributes

Apart from the conditionals, an event contributes the same instructions wherever it stands: they
depend on its arguments and on the tables, and not on the output so far.  A `Recipe` is that
contribution, drafted instructions and the fallbacks that were taken.  A draft's operands are
values that have yet to pass the range scan.  The kinds are grouped by what they act on, one
function a group; `recipe` joins them.

An `Emission` is a recipe whose fallbacks have been put in words.  An event that has none fails
before it has recorded or written anything.
-/

namespace SceneScript

/-- An instruction whose operands have not been checked. -/
structure Draft where
  opcode : Opcode
  operands : List Value := []

/-- The slots that a draft fills. -/
def Draft.slots (d : Draft) : List Value := .nat d.opcode.byte.toNat :: d.operands

/-- What an event contributes. -/
structure Recipe where
  drafts : List Draft := []
  fallbacks : List Fallback := []

/-- What an event contributes, with its warnings. -/
structure Emission where
  drafts : List Draft := []
  warnings : List Warning := []

namespace Recipe

/-- A single instruction. -/
def single (opcode : Opcode) (operands : List Value := []) : Recipe :=
  { drafts := [⟨opcode, operands⟩] }

/-- A fallback and no instruction. -/
def dropped (cause : Fallback) : Recipe := { fallbacks := [cause] }

/-- The slots that a recipe fills. -/
def slots (r : Recipe) : List Value := r.drafts.flatMap Draft.slots

/-- A recipe with its fallbacks in words, if there are words for all of them. -/
def emission (r : Recipe) : Except Fault Emission := do
  return { drafts := r.drafts, warnings := ← r.fallbacks.mapM Fallback.warning }

end Recipe

/-- The slots that an emission fills. -/
def Emission.slots (e : Emission) : List Value := e.drafts.flatMap Draft.slots

/-- What names in a script refer to: the tables, and the actors of the scene it is compiled for. -/
structure Scope where
  symbols : Symbols
  actors : List Value

namespace Scope

/-- The scope of a scene. -/
def ofScene (symbols : Symbols) (scene : Value) : Except Fault Scope := do
  return ⟨symbols, ← symbols.sceneActors scene⟩

/-! ## Text and flags -/

/-- A text by its index in the string table. -/
def emitText (scope : Scope) (args : Fields) : Except Fault Recipe := do
  let index ← Symbols.stringIndex scope.symbols.strings (args.get "text")
  return .single .text (Operand.word index)

/-- A write to a flag by its index in the flag table. -/
def emitFlag (scope : Scope) (opcode : Opcode) (args : Fields) : Except Fault Recipe := do
  let index ← Symbols.flagIndex scope.symbols.flags (args.get "flag")
  return .single opcode (Operand.word index)

/-! ## Screen, camera and time -/

/-- A position on the screen or map. -/
def coordinates (args : Fields) : List Value := [args.arg "x" (.int 0), args.arg "y" (.int 0)]

/-- A fade with its speed. -/
def emitFade (opcode : Opcode) (args : Fields) : Recipe :=
  .single opcode [args.arg "speed" (.int 1)]

/-- The speed operand of a camera event. -/
def cameraSpeed (args : Fields) : Except Fault Value :=
  Operand.cameraSpeed (args.arg "speed" (.int 0))

/-- A camera instruction, whose last operand is a speed. -/
def emitCamera (opcode : Opcode) (args : Fields) (operands : List Value) : Except Fault Recipe := do
  return .single opcode (operands ++ [← cameraSpeed args])

/-- A timed instruction, one for each chunk of the duration. -/
def emitTicks (opcode : Opcode) (args : Fields) : Recipe :=
  { drafts := (Seconds.ofArgument (args.get "time")).chunks.map fun ticks =>
      ⟨opcode, [.int ticks]⟩ }

/-! ## Scenes and battles -/

/-- A switch to another scene, or nothing if the scene is gone. -/
def emitSwitchScene (scope : Scope) (args : Fields) : Recipe :=
  let scene := args.get "sceneId"
  match Symbols.entryIndex? scope.symbols.scenes scene with
  | none => .dropped (.sceneNotFound scene)
  | some index =>
    .single .switchScene (Operand.word index ++ coordinates args ++
      [.nat (Operand.direction (args.get "direction")), args.arg "fadeSpeed" (.int 2)])

/-- A battle, or nothing if the encounter is not a natural number. -/
def battle (encounter : Value) : Option Int → Recipe
  | none => .dropped (.invalidEncounter encounter)
  | some n =>
    if n < 0 then .dropped (.invalidEncounter encounter) else .single .startBattle [.int n]

/-- A battle by the number that its encounter starts with. -/
def emitStartBattle (args : Fields) : Except Fault Recipe := do
  let encounter := args.get "encounter"
  return battle encounter (← Operand.leadingInteger encounter)

/-! ## Actors -/

/-- The number of an event's actor in the scene. -/
def actorNumber (scope : Scope) (args : Fields) : Nat :=
  Symbols.actorNumber scope.actors (args.get "actorId")

/-- The fallback for an actor that is named but not in the scene. -/
def actorFallbacks (scope : Scope) (args : Fields) : List Fallback :=
  let id := args.get "actorId"
  if scope.actorNumber args = 0 ∧ !id.isNull then [.actorNotInScene id] else []

/-- An instruction that takes the actor as its first operand. -/
def emitActor (scope : Scope) (opcode : Opcode) (args : Fields) (operands : List Value) :
    Recipe where
  drafts := [⟨opcode, .nat (scope.actorNumber args) :: operands⟩]
  fallbacks := scope.actorFallbacks args

/-- An instruction for the active actor, with the one that makes the actor active before it. -/
def emitActiveActor (scope : Scope) (opcode : Opcode) (args : Fields) (operands : List Value) :
    Recipe where
  drafts := [⟨.actorSetActive, [.nat (scope.actorNumber args)]⟩, ⟨opcode, operands⟩]
  fallbacks := scope.actorFallbacks args

/-! ## Overlay -/

/-- The overlay in white or black. -/
def emitOverlayShow (args : Fields) : Recipe :=
  let color := if (args.get "color").equals (.str "white") then 1 else 0
  .single .overlayShow (.nat color :: coordinates args)

/-! ## Music -/

/-- A music track with its loop mark; the first track stands in for one that is gone. -/
def emitMusicPlay (scope : Scope) (args : Fields) : Recipe :=
  let track := args.get "musicId"
  let loop := if (args.get "loop").truthy then 1 else 0
  { drafts := [⟨.musicPlay, [.nat (Symbols.trackIndex scope.symbols.music track), .nat loop]⟩]
    fallbacks :=
      if (Symbols.entryIndex? scope.symbols.music track).isNone then [.musicNotFound track]
      else [] }

/-! ## All kinds -/

/-- What an event of a given kind contributes.  The two conditionals contribute nothing here:
their code depends on where they stand. -/
def recipe (scope : Scope) (kind : EventKind) (args : Fields) : Except Fault Recipe :=
  match kind with
  | .text => scope.emitText args
  | .setTrue => scope.emitFlag .setTrue args
  | .setFalse => scope.emitFlag .setFalse args
  | .fadeIn => .ok (emitFade .fadeIn args)
  | .fadeOut => .ok (emitFade .fadeOut args)
  | .cameraMoveTo => emitCamera .cameraMoveTo args (coordinates args)
  | .cameraLock => emitCamera .cameraLock args []
  | .cameraShake => .ok (emitTicks .cameraShake args)
  | .wait => .ok (emitTicks .wait args)
  | .showSprites => .ok (.single .showSprites)
  | .hideSprites => .ok (.single .hideSprites)
  | .switchScene => .ok (scope.emitSwitchScene args)
  | .startBattle => emitStartBattle args
  | .returnToTitle => .ok (.single .returnToTitle)
  | .actorSetPosition => .ok (scope.emitActiveActor .actorSetPosition args (coordinates args))
  | .actorSetDirection =>
    .ok (scope.emitActiveActor .actorSetDirection args
      [.nat (Operand.direction (args.get "direction"))])
  | .actorMoveTo => .ok (scope.emitActiveActor .actorMoveTo args (coordinates args))
  | .actorEmote => .ok (scope.emitActor .actorEmote args [args.arg "emoteId" (.int 0)])
  | .actorShow => .ok (scope.emitActor .actorShow args [])
  | .actorHide => .ok (scope.emitActor .actorHide args [])
  | .overlayShow => .ok (emitOverlayShow args)
  | .overlayHide => .ok (.single .overlayHide)
  | .overlaySetPosition => .ok (.single .overlaySetPosition (coordinates args))
  | .overlayMoveTo => .ok (.single .overlayMoveTo (coordinates args))
  | .awaitInput => .ok (.single .awaitInput [.nat (Operand.buttonMask (args.get "input"))])
  | .musicPlay => .ok (scope.emitMusicPlay args)
  | .musicStop => .ok (.single .musicStop)
  | .stop => .ok (.single .halt)
  | .listEnd | .ifTrue | .ifFalse => .ok {}
  | .ifValue => .ok (.dropped (.noBytecode kind))

/-- What an event of a given kind contributes, with its warnings. -/
def emit (scope : Scope) (kind : EventKind) (args : Fields) : Except Fault Emission := do
  (← scope.recipe kind args).emission

end Scope

end SceneScript
