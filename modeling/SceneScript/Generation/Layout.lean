import SceneScript.Generation.Emission
import SceneScript.Output
import SceneScript.Script.Event

/-!
# How a script is laid out

A script is laid out in one pass.  A conditional event becomes

    IF_TRUE  flag  address of the code for a set flag
    code for a clear flag
    JUMP     address of what follows
    code for a set flag

and since the two addresses are not known when they are written, their slots are reserved and
patched once they are.  A test for a clear flag is the same with its bodies exchanged, so the
opcode is always `IF_TRUE`.  After each event the whole output is scanned for slots that are no
bytes, in the name of that event.

The layout says which steps are made, and in what order; what a step does is left to `Steps`.  A
generator that works alone, one that works for a session and one that is followed by a listener
make the same steps.
-/

namespace SceneScript

/-- The steps that a script is laid out with. -/
structure Steps (m : Type → Type) where
  /-- Begins an event. -/
  enter : Event → m Unit
  /-- Goes on with a result, or fails with its fault. -/
  orFail {α : Type} : Except Fault α → m α
  /-- Records a warning. -/
  warn : Warning → m Unit
  /-- Adds slots to the output. -/
  extend : List Value → m Unit
  /-- Reserves an address and tells where. -/
  reserve : m Nat
  /-- Fills a reserved address with the address of the next byte. -/
  patchHere : Nat → m Unit
  /-- Refuses output that holds something else than bytes and open slots, in the name of an
  event. -/
  check : Value → Value → m Unit
  /-- The program in the output, if it is finished. -/
  freeze : m Program

variable {m : Type → Type} [Monad m]

namespace Steps

/-- Records the warnings of an emission and adds its slots. -/
def place (steps : Steps m) (emission : Emission) : m Unit := do
  emission.warnings.forM steps.warn
  steps.extend emission.slots

/-- Lays out a conditional on a flag, given how the code of its bodies is laid out. -/
def conditional (steps : Steps m) (scope : Scope) (args : Fields) (whenSet whenClear : m Unit) :
    m Unit := do
  let index ← steps.orFail (Symbols.flagIndex scope.symbols.flags (args.get "flag"))
  steps.extend (Draft.slots ⟨.ifTrue, Operand.word index⟩)
  let setAddress ← steps.reserve
  whenClear
  steps.extend (Draft.slots ⟨.jump, []⟩)
  let endAddress ← steps.reserve
  steps.patchHere setAddress
  whenSet
  steps.patchHere endAddress

end Steps

namespace Scope

mutual
/-- Lays out an event. -/
def layOutEvent (scope : Scope) (steps : Steps m) : Event → m Unit
  | .conditional .ifTrue args whenTrue whenFalse =>
    steps.conditional scope args (layOutEvents scope steps whenTrue)
      (layOutEvents scope steps whenFalse)
  | .conditional .ifFalse args whenTrue whenFalse =>
    steps.conditional scope args (layOutEvents scope steps whenFalse)
      (layOutEvents scope steps whenTrue)
  | .plain .ifTrue args | .plain .ifFalse args => steps.conditional scope args (pure ()) (pure ())
  | .conditional kind args _ _ | .plain kind args => do
    steps.place (← steps.orFail (scope.emit kind args))

/-- Lays out events one after the other, with a scan after each. -/
def layOutEvents (scope : Scope) (steps : Steps m) : List Event → m Unit
  | [] => pure ()
  | event :: rest => do
    steps.enter event
    layOutEvent scope steps event
    steps.check (.str event.kind.command) (.object event.args)
    layOutEvents scope steps rest
end

/-- Lays out a script and, unless it is the body of a conditional, the end after it. -/
def layOutBlock (scope : Scope) (steps : Steps m) (script : Script) (isBody : Bool) : m Unit := do
  scope.layOutEvents steps script
  if !isBody then steps.extend (Draft.slots ⟨.halt, []⟩)

/-- Lays out a whole script and freezes it. -/
def layOut (scope : Scope) (steps : Steps m) (script : Script) : m Program := do
  scope.layOutBlock steps script false
  steps.freeze

end Scope

end SceneScript
