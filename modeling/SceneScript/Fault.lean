import SceneScript.Bytecode.Opcode
import SceneScript.Json
import SceneScript.Text.Utf8
import SceneScript.Value.Display

/-!
# What can go wrong

Every failure is a cause, and its wording is in one place.  Three families are told apart
because the command line treats them differently:

* a `CompileError` aborts code generation and carries the data an editor needs to point at the
  event;
* a `Malformed` input is reported with a sentence, and so is an integer that is too long to be
  read or written;
* the remaining faults are operations that were asked of a value, position or file that cannot
  take them.
-/

namespace SceneScript

/-! ## Errors of code generation -/

/-- Why a script cannot be compiled. -/
inductive CompileError where
  /-- A text is not in the string table. -/
  | stringNotFound (text : Value)
  /-- A flag is not in the flag table. -/
  | flagNotFound (flag : Value)
  /-- A slot of the output does not fit its byte, or an address does not fit its two; the event
  during which this was noticed is named if there is one. -/
  | outputFailed (command args position value : Value)
  /-- Any other kind, with its own details. -/
  | other (kind : Value) (details : Fields)

namespace CompileError

/-- The short name of the kind of an error. -/
def kind : CompileError → Value
  | .stringNotFound _ => .str "STRING_NOT_FOUND"
  | .flagNotFound _ => .str "FLAG_NOT_FOUND"
  | .outputFailed .. => .str "OUTPUT_FAILED"
  | .other kind _ => kind

/-- The details of an error, in the order in which they are shown. -/
def details : CompileError → Fields
  | .stringNotFound text => [(.str "text", text)]
  | .flagNotFound flag => [(.str "flag", flag)]
  | .outputFailed command args position value =>
    [(.str "command", command), (.str "args", args), (.str "position", position),
     (.str "value", value)]
  | .other _ details => details

/-- A detail of an error as it is told, with its name. -/
def detailText (detail : Scalar × Value) : Except TooManyDigits String := do
  return (← detail.1.display) ++ "=" ++ (← detail.2.literal)

/-- What is told about an error: its kind, and the details if there are any.  An error with an
integer of too many digits among its details cannot be told. -/
def message (e : CompileError) : Except TooManyDigits String := do
  match e.details with
  | [] => e.kind.display
  | details => return (← e.kind.display) ++ ": " ++ commaList (← details.mapM detailText)

end CompileError

/-! ## Malformed input -/

/-- Why an input is refused. -/
inductive Malformed where
  | scriptNotList (typeName : String)
  | eventNotObject (typeName : String)
  | commandMissing (event : Value)
  | commandUnknown (command : Value)
  /-- Arguments given as a list of pairs hold an element that is no pair. -/
  | notAPair (index length : Nat)
  | tablesNotObject
  | actorsNotObject
  | unknownOpcode (byte : UInt8) (address : Nat)
  | truncatedInstruction (opcode : Opcode) (address : Nat)
  | notAnOpcode (value : Value)
  | byteOutOfRange
  | pathWithoutName (path : String)
  | pathWithNull
  | notUtf8 (error : Text.Utf8.Error)
  | notJson (error : Json.Error)
  /-- An integer has more digits than are read or written. -/
  | tooManyDigits (error : TooManyDigits)

namespace Malformed

/-- The sentence about a malformed input.  Some quote a value, which may be too long for that. -/
def sentence : Malformed → Except TooManyDigits String
  | .scriptNotList typeName => .ok ("Script must be a list of events, got " ++ typeName)
  | .eventNotObject typeName => .ok ("Event must be an object, got " ++ typeName)
  | .commandMissing event => do return "Event has no command: " ++ (← event.literal)
  | .commandUnknown command => do return "Unknown event command '" ++ (← command.display) ++ "'"
  | .notAPair index length =>
    .ok ("dictionary update sequence element #" ++ toString index ++ " has length " ++
      toString length ++ "; 2 is required")
  | .tablesNotObject => .ok "Symbol tables must be an object"
  | .actorsNotObject => .ok "'actors' must map scene ids to actor lists"
  | .unknownOpcode byte address =>
    .ok ("Unknown opcode 0x" ++ Text.hex .upper 2 byte.toNat ++ " at " ++ toString address)
  | .truncatedInstruction opcode address =>
    .ok ("Truncated " ++ opcode.name ++ " at " ++ toString address)
  | .notAnOpcode value => do return (← value.literal) ++ " is not a valid Op"
  | .byteOutOfRange => .ok "bytes must be in range(0, 256)"
  | .pathWithoutName path => .ok ("PosixPath(" ++ Text.quoted path ++ ") has an empty name")
  | .pathWithNull => .ok "embedded null byte"
  | .notUtf8 error => .ok error.message
  | .notJson error => .ok error.message
  | .tooManyDigits error => .error error

/-- What is told about a malformed input: its sentence, or that there is none for the digits. -/
def message (cause : Malformed) : String :=
  match cause.sentence with
  | .ok text => text
  | .error e => e.message

end Malformed

/-! ## All faults -/

/-- A failure of any operation of the library. -/
inductive Fault where
  | compile (error : CompileError)
  | malformed (cause : Malformed)
  /-- A value is of a type that the operation does not take. -/
  | wrongType
  /-- A value has no such operation at all. -/
  | unsupported
  /-- A position lies outside the list. -/
  | outOfRange
  /-- There are not two bytes at the place of a word. -/
  | shortWord
  /-- A number is to be built that is larger than any number can be. -/
  | overflow
  | fileNotFound (path : String)
  | isDirectory
  | notDirectory
  /-- A path, or a name in it, is longer than a disk can hold. -/
  | nameTooLong

/-- A result that there is only within the limit of digits, as one that fails with a fault. -/
def Fault.limited {α : Type} : Except TooManyDigits α → Except Fault α
  | .ok a => .ok a
  | .error e => .error (.malformed (.tooManyDigits e))

/-- An error of another kind from its parts.  Details that do not count as given are none, and
then the kind is all there is to tell and has to be a text. -/
def CompileError.ofParts (kind details : Value) : Except Fault CompileError :=
  match details.orElse (.object []), kind with
  | .object [], .str _ => .ok (.other kind [])
  | .object [], _ => .error .wrongType
  | .object fields, _ => .ok (.other kind fields)
  | _, _ => .error .unsupported

end SceneScript
