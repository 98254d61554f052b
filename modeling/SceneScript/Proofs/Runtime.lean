import SceneScript.Bytecode.Instruction
import SceneScript.Generation.Emission
import SceneScript.Script.Event

/-!
# Playing programs and playing scripts

What a script does can be told in two ways.  A program runs on a machine that knows flags, jumps
and the end, and records everything else:

    IF_TRUE  flag  address     jumps if the flag is set, else falls through
    JUMP     address           jumps
    SET_TRUE, SET_FALSE flag   write the flag
    END                        halts
    anything else              is recorded

A script is walked event by event, without any code: a test takes one of its bodies by the flag
as it is at that moment, a stop ends the whole walk from any depth, and every other event gives
the commands that it emits.  Both act on a `World`, the flags and what was recorded.

A walk fails where a name is unknown or an operand is no byte, and a machine is stuck where
there is no instruction.
-/

namespace SceneScript

/-! ## Worlds -/

/-- The flags of a game by their indices. -/
abbrev Flags := Nat → Bool

/-- An instruction as it is recorded, without its address. -/
structure Command where
  opcode : Opcode
  operands : List UInt8
  deriving DecidableEq

/-- What has been done so far: the flags as they are, and what was recorded. -/
structure World where
  flags : Flags
  recorded : List Command

namespace World

/-- The world before anything was done. -/
def initial (flags : Flags) : World := ⟨flags, []⟩

/-- Writes a flag. -/
def write (w : World) (index : Nat) (value : Bool) : World :=
  { w with flags := fun n => if n = index then value else w.flags n }

/-- Records commands. -/
def record (w : World) (commands : List Command) : World :=
  { w with recorded := w.recorded ++ commands }

@[simp] theorem record_nil (w : World) : w.record [] = w := by
  simp only [record, List.append_nil]

@[simp] theorem record_record (w : World) (commands others : List Command) :
    (w.record commands).record others = w.record (commands ++ others) := by
  simp only [record, List.append_assoc]

end World

/-! ## The machine -/

/-- A machine is at a position in a program. -/
structure Machine where
  position : Nat
  world : World

/-- What a step comes to. -/
inductive Progress where
  | stuck
  | halted (world : World)
  | moved (machine : Machine)

/-- The number that two bytes make, high byte first. -/
def joined (high low : UInt8) : Nat := high.toNat * 256 + low.toNat

/-- The instruction at an address of a program. -/
def fetch (program : Program) (address : Nat) : Option Instruction :=
  match program.drop address with
  | [] => none
  | byte :: rest =>
    match Opcode.ofByte? byte with
    | none => none
    | some opcode =>
      if rest.length < opcode.operandCount then none
      else some ⟨address, opcode, rest.take opcode.operandCount⟩

namespace Instruction

/-- The address behind an instruction. -/
def next (i : Instruction) : Nat := i.address + i.size

/-- Executes an instruction. -/
def execute (i : Instruction) (w : World) : Progress :=
  match i.opcode, i.operands with
  | .halt, _ => .halted w
  | .jump, [high, low] => .moved ⟨joined high low, w⟩
  | .ifTrue, [flagHigh, flagLow, high, low] =>
    .moved ⟨if w.flags (joined flagHigh flagLow) then joined high low else i.next, w⟩
  | .setTrue, [high, low] => .moved ⟨i.next, w.write (joined high low) true⟩
  | .setFalse, [high, low] => .moved ⟨i.next, w.write (joined high low) false⟩
  | opcode, operands => .moved ⟨i.next, w.record [⟨opcode, operands⟩]⟩

end Instruction

/-- A step of a machine. -/
def step (program : Program) (m : Machine) : Progress :=
  match fetch program m.position with
  | none => .stuck
  | some i => i.execute m.world

/-- `Runs program m m'`: the machine gets from one state to the other. -/
inductive Runs (program : Program) : Machine → Machine → Prop
  | refl (m : Machine) : Runs program m m
  | step {m m' m'' : Machine} :
      SceneScript.step program m = .moved m' → Runs program m' m'' → Runs program m m''

/-- `Halts program m w`: the machine comes to an end, and the world is `w` then. -/
def Halts (program : Program) (m : Machine) (w : World) : Prop :=
  ∃ last, Runs program m last ∧ step program last = .halted w

theorem Runs.trans {program : Program} {m m' m'' : Machine} (h : Runs program m m')
    (h' : Runs program m' m'') : Runs program m m'' := by
  induction h with
  | refl => exact h'
  | step hstep _ ih => exact .step hstep (ih h')

theorem Halts.of_runs {program : Program} {m m' : Machine} {w : World} (h : Runs program m m')
    (h' : Halts program m' w) : Halts program m w := by
  obtain ⟨last, hruns, hlast⟩ := h'
  exact ⟨last, h.trans hruns, hlast⟩

/-! ## The walk -/

/-- How a walk ends: at the end of the events, or at a stop. -/
inductive Walked where
  | on (world : World)
  | stopped (world : World)

/-- The world after a walk. -/
def Walked.world : Walked → World
  | .on w => w
  | .stopped w => w

/-- The command of a draft whose operands are bytes. -/
def Draft.command? (d : Draft) : Option Command := do
  return ⟨d.opcode, ← d.operands.mapM Value.byte?⟩

namespace Scope

/-- The index of the flag that an event names. -/
def flag? (scope : Scope) (args : Fields) : Option Nat :=
  (Symbols.flagIndex scope.symbols.flags (args.get "flag")).toOption

/-- Walks over an event that is no test. -/
def walkLeaf (scope : Scope) (kind : EventKind) (args : Fields) (w : World) : Option Walked :=
  match kind with
  | .stop => some (.stopped w)
  | .setTrue => do return .on (w.write (← scope.flag? args) true)
  | .setFalse => do return .on (w.write (← scope.flag? args) false)
  | kind => do
    let emission ← (scope.emit kind args).toOption
    return .on (w.record (← emission.drafts.mapM Draft.command?))

mutual
/-- Walks over an event. -/
def walkEvent (scope : Scope) : Event → World → Option Walked
  | .conditional .ifTrue args whenTrue whenFalse, w => do
    if w.flags (← scope.flag? args) then walkEvents scope whenTrue w
      else walkEvents scope whenFalse w
  | .conditional .ifFalse args whenTrue whenFalse, w => do
    if w.flags (← scope.flag? args) then walkEvents scope whenFalse w
      else walkEvents scope whenTrue w
  | .plain .ifTrue args, w | .plain .ifFalse args, w => do
    let _ ← scope.flag? args
    return .on w
  | .conditional kind args _ _, w | .plain kind args, w => scope.walkLeaf kind args w

/-- Walks over events one after the other, up to a stop. -/
def walkEvents (scope : Scope) : List Event → World → Option Walked
  | [], w => some (.on w)
  | event :: rest, w => do
    match ← walkEvent scope event w with
    | .on w' => walkEvents scope rest w'
    | .stopped w' => return .stopped w'
end

/-- The world after a script was walked from its start. -/
def walk (scope : Scope) (script : Script) (flags : Flags) : Option World := do
  return (← scope.walkEvents script (World.initial flags)).world

end Scope

end SceneScript
