/-!
# Event kinds

The editor writes each event with a command, `EVENT_` followed by the name of its kind.
-/

namespace SceneScript

/-- The kinds of events. -/
inductive EventKind where
  /-- The editor's mark at the end of a list; there is nothing to run. -/
  | listEnd
  | text
  | ifTrue
  | ifFalse
  | ifValue
  | setTrue
  | setFalse
  | fadeIn
  | fadeOut
  | cameraMoveTo
  | cameraLock
  | switchScene
  | startBattle
  | actorSetPosition
  | actorSetDirection
  | actorMoveTo
  | wait
  | cameraShake
  | actorEmote
  | showSprites
  | hideSprites
  | actorShow
  | actorHide
  | returnToTitle
  | overlayShow
  | overlayHide
  | overlaySetPosition
  | overlayMoveTo
  | awaitInput
  | musicPlay
  | musicStop
  /-- Ends the whole script. -/
  | stop
  deriving DecidableEq

namespace EventKind

/-- Every kind of event. -/
def all : List EventKind :=
  [.listEnd, .text, .ifTrue, .ifFalse, .ifValue, .setTrue, .setFalse, .fadeIn, .fadeOut,
   .cameraMoveTo, .cameraLock, .switchScene, .startBattle, .actorSetPosition, .actorSetDirection,
   .actorMoveTo, .wait, .cameraShake, .actorEmote, .showSprites, .hideSprites, .actorShow,
   .actorHide, .returnToTitle, .overlayShow, .overlayHide, .overlaySetPosition, .overlayMoveTo,
   .awaitInput, .musicPlay, .musicStop, .stop]

/-- The name of a kind. -/
def name : EventKind → String
  | .listEnd => "END"
  | .text => "TEXT"
  | .ifTrue => "IF_TRUE"
  | .ifFalse => "IF_FALSE"
  | .ifValue => "IF_VALUE"
  | .setTrue => "SET_TRUE"
  | .setFalse => "SET_FALSE"
  | .fadeIn => "FADE_IN"
  | .fadeOut => "FADE_OUT"
  | .cameraMoveTo => "CAMERA_MOVE_TO"
  | .cameraLock => "CAMERA_LOCK"
  | .switchScene => "SWITCH_SCENE"
  | .startBattle => "START_BATTLE"
  | .actorSetPosition => "ACTOR_SET_POSITION"
  | .actorSetDirection => "ACTOR_SET_DIRECTION"
  | .actorMoveTo => "ACTOR_MOVE_TO"
  | .wait => "WAIT"
  | .cameraShake => "CAMERA_SHAKE"
  | .actorEmote => "ACTOR_EMOTE"
  | .showSprites => "SHOW_SPRITES"
  | .hideSprites => "HIDE_SPRITES"
  | .actorShow => "ACTOR_SHOW"
  | .actorHide => "ACTOR_HIDE"
  | .returnToTitle => "RETURN_TO_TITLE"
  | .overlayShow => "OVERLAY_SHOW"
  | .overlayHide => "OVERLAY_HIDE"
  | .overlaySetPosition => "OVERLAY_SET_POSITION"
  | .overlayMoveTo => "OVERLAY_MOVE_TO"
  | .awaitInput => "AWAIT_INPUT"
  | .musicPlay => "MUSIC_PLAY"
  | .musicStop => "MUSIC_STOP"
  | .stop => "STOP"

/-- The command that the editor writes for a kind. -/
def command (kind : EventKind) : String := "EVENT_" ++ kind.name

/-- The kind with a given name. -/
def ofName? (name : String) : Option EventKind := all.find? fun kind => kind.name == name

/-- The kind with a given command. -/
def ofCommand? (command : String) : Option EventKind :=
  all.find? fun kind => kind.command == command

/-- Whether events of a kind carry two bodies in a script file. -/
def isConditional (kind : EventKind) : Bool := kind == .ifTrue || kind == .ifFalse

theorem mem_all (kind : EventKind) : kind ∈ all := by
  cases kind <;> decide

end EventKind

end SceneScript
