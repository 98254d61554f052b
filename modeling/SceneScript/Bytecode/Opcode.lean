/-!
# The instruction set

The runtime executes a flat list of bytes: an opcode byte followed by a fixed number of operand
bytes.  Some operands hold a 16-bit address, high byte first; the table says at which offset.
-/

namespace SceneScript

/-- The operations of the runtime. -/
inductive Opcode where
  | halt
  | text
  | jump
  | ifTrue
  | setTrue
  | setFalse
  | actorSetDirection
  | actorSetActive
  | cameraMoveTo
  | cameraLock
  | wait
  | fadeOut
  | fadeIn
  | switchScene
  | actorSetPosition
  | actorMoveTo
  | showSprites
  | hideSprites
  | startBattle
  | actorShow
  | actorHide
  | actorEmote
  | cameraShake
  | returnToTitle
  | overlayShow
  | overlayHide
  | overlaySetPosition
  | overlayMoveTo
  | awaitInput
  | musicPlay
  | musicStop
  deriving DecidableEq

namespace Opcode

/-- Every opcode, in the order of their bytes. -/
def all : List Opcode :=
  [.halt, .text, .jump, .ifTrue, .setTrue, .setFalse, .actorSetDirection, .actorSetActive,
   .cameraMoveTo, .cameraLock, .wait, .fadeOut, .fadeIn, .switchScene, .actorSetPosition,
   .actorMoveTo, .showSprites, .hideSprites, .startBattle, .actorShow, .actorHide, .actorEmote,
   .cameraShake, .returnToTitle, .overlayShow, .overlayHide, .overlaySetPosition, .overlayMoveTo,
   .awaitInput, .musicPlay, .musicStop]

/-- The byte that stands for an opcode in a program. -/
def byte : Opcode → UInt8
  | .halt => 0x00
  | .text => 0x01
  | .jump => 0x02
  | .ifTrue => 0x03
  | .setTrue => 0x05
  | .setFalse => 0x06
  | .actorSetDirection => 0x07
  | .actorSetActive => 0x08
  | .cameraMoveTo => 0x09
  | .cameraLock => 0x0a
  | .wait => 0x0b
  | .fadeOut => 0x0c
  | .fadeIn => 0x0d
  | .switchScene => 0x0e
  | .actorSetPosition => 0x0f
  | .actorMoveTo => 0x10
  | .showSprites => 0x11
  | .hideSprites => 0x12
  | .startBattle => 0x13
  | .actorShow => 0x14
  | .actorHide => 0x15
  | .actorEmote => 0x16
  | .cameraShake => 0x17
  | .returnToTitle => 0x18
  | .overlayShow => 0x19
  | .overlayHide => 0x1a
  | .overlaySetPosition => 0x1b
  | .overlayMoveTo => 0x1c
  | .awaitInput => 0x1d
  | .musicPlay => 0x1e
  | .musicStop => 0x1f

/-- The name of an opcode in listings and messages. -/
def name : Opcode → String
  | .halt => "END"
  | .text => "TEXT"
  | .jump => "JUMP"
  | .ifTrue => "IF_TRUE"
  | .setTrue => "SET_TRUE"
  | .setFalse => "SET_FALSE"
  | .actorSetDirection => "ACTOR_SET_DIRECTION"
  | .actorSetActive => "ACTOR_SET_ACTIVE"
  | .cameraMoveTo => "CAMERA_MOVE_TO"
  | .cameraLock => "CAMERA_LOCK"
  | .wait => "WAIT"
  | .fadeOut => "FADE_OUT"
  | .fadeIn => "FADE_IN"
  | .switchScene => "SWITCH_SCENE"
  | .actorSetPosition => "ACTOR_SET_POSITION"
  | .actorMoveTo => "ACTOR_MOVE_TO"
  | .showSprites => "SHOW_SPRITES"
  | .hideSprites => "HIDE_SPRITES"
  | .startBattle => "START_BATTLE"
  | .actorShow => "ACTOR_SHOW"
  | .actorHide => "ACTOR_HIDE"
  | .actorEmote => "ACTOR_EMOTE"
  | .cameraShake => "CAMERA_SHAKE"
  | .returnToTitle => "RETURN_TO_TITLE"
  | .overlayShow => "OVERLAY_SHOW"
  | .overlayHide => "OVERLAY_HIDE"
  | .overlaySetPosition => "OVERLAY_SET_POSITION"
  | .overlayMoveTo => "OVERLAY_MOVE_TO"
  | .awaitInput => "AWAIT_INPUT"
  | .musicPlay => "MUSIC_PLAY"
  | .musicStop => "MUSIC_STOP"

/-- The number of operand bytes that follow an opcode. -/
def operandCount : Opcode → Nat
  | .text | .jump | .setTrue | .setFalse => 2
  | .ifTrue => 4
  | .actorSetDirection | .actorSetActive | .cameraLock | .wait | .fadeOut | .fadeIn => 1
  | .startBattle | .actorShow | .actorHide | .cameraShake | .awaitInput => 1
  | .cameraMoveTo | .overlayShow => 3
  | .switchScene => 6
  | .actorSetPosition | .actorMoveTo | .actorEmote | .overlaySetPosition | .overlayMoveTo => 2
  | .musicPlay => 2
  | .halt | .showSprites | .hideSprites | .returnToTitle | .overlayHide | .musicStop => 0

/-- The offsets, among the operands, at which a 16-bit address starts. -/
def addressOffsets : Opcode → List Nat
  | .jump => [0]
  | .ifTrue => [2]
  | _ => []

/-- The number of bytes of an instruction. -/
def size (op : Opcode) : Nat := 1 + op.operandCount

/-- The opcode that a byte stands for. -/
def ofByte? (b : UInt8) : Option Opcode := all.find? fun op => op.byte == b

theorem mem_all (op : Opcode) : op ∈ all := by
  cases op <;> decide

/-- No two opcodes share a byte, so a byte read back is the opcode that was written. -/
theorem ofByte?_byte (op : Opcode) : ofByte? op.byte = some op := by
  cases op <;> decide

/-- An opcode is only read from its own byte. -/
theorem byte_of_ofByte? {b : UInt8} {op : Opcode} (h : ofByte? b = some op) : op.byte = b := by
  simpa using List.find?_some h

end Opcode

end SceneScript
