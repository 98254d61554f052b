import SceneScript.Generation.Layout

/-!
# Code generation

The state of generation is the output and the warnings so far.  It outlives a failure: what had
been emitted and recorded until then stays.

A generator may have something attached to it that listens: it hears of every event that is
begun, of every warning, and of every look at the output that may refuse it.  It never changes
what the generator does.  A session is attached in this way, to record the warnings of its
compilations.
-/

namespace SceneScript

/-- The state of generation: the output and the warnings so far. -/
structure Generator where
  output : Output := {}
  warnings : List Warning := []

/-- A step of generation, which leaves a state whether it succeeds or fails. -/
abbrev Generation (α : Type) := EStateM Fault Generator α

namespace Generation

/-- Goes on with a result, or fails with its fault. -/
def orFail {α : Type} : Except Fault α → Generation α
  | .ok a => pure a
  | .error fault => throw fault

/-- Changes the output. -/
def onOutput (f : Output → Output) : Generation Unit :=
  modify fun state => { state with output := f state.output }

/-- Adds slots to the output. -/
def extend (values : List Value) : Generation Unit := onOutput (·.extend values)

/-- Records a warning. -/
def warn (warning : Warning) : Generation Unit :=
  modify fun state => { state with warnings := state.warnings ++ [warning] }

/-- The address of the next byte. -/
def position : Generation Nat := do return (← get).output.size

/-- Reserves an address and tells where. -/
def reserve : Generation Nat := do
  let place ← position
  onOutput Output.reserve
  return place

/-- Fills a reserved address with the address of the next byte. -/
def patchHere (place : Nat) : Generation Unit := fun state =>
  match Output.patch (.nat place) (.nat state.output.size) state.output with
  | .ok _ output => .ok () { state with output := output }
  | .error fault output => .error fault { state with output := output }

/-- Refuses output that holds something else than bytes and open slots, in the name of an event. -/
def check (command args : Value) : Generation Unit := do
  match (← get).output.check command args with
  | .ok _ => pure ()
  | .error fault => throw fault

/-- The program in the output, if it is finished. -/
def freeze : Generation Program := do
  match (← get).output.freeze with
  | .ok program => return program
  | .error fault => throw fault

/-- The steps of a generator that works alone. -/
def steps : Steps Generation where
  enter _ := pure ()
  orFail := orFail
  warn := warn
  extend := extend
  reserve := reserve
  patchHere := patchHere
  check := check
  freeze := freeze

/-- Records the warnings of an emission and adds its slots. -/
def place (emission : Emission) : Generation Unit := steps.place emission

/-- Lays out a conditional on a flag, given how the code of its bodies is laid out. -/
def conditional (scope : Scope) (args : Fields) (whenSet whenClear : Generation Unit) :
    Generation Unit :=
  steps.conditional scope args whenSet whenClear

end Generation

namespace Scope

/-- Lays out an event. -/
def generateEvent (scope : Scope) (event : Event) : Generation Unit :=
  scope.layOutEvent Generation.steps event

/-- Lays out events one after the other, with a scan after each. -/
def generateEvents (scope : Scope) (script : Script) : Generation Unit :=
  scope.layOutEvents Generation.steps script

/-- Lays out a script and, unless it is the body of a conditional, the end after it. -/
def generateBlock (scope : Scope) (script : Script) (isBody : Bool) : Generation Unit :=
  scope.layOutBlock Generation.steps script isBody

/-- Lays out a whole script and freezes it. -/
def generate (scope : Scope) (script : Script) : Generation Program :=
  scope.layOut Generation.steps script

/-- The number of an event's actor, with the warning if the actor is not in the scene. -/
def resolveActor (scope : Scope) (event : Event) : Generation Nat := do
  let warnings ← Generation.orFail ((scope.actorFallbacks event.args).mapM Fallback.warning)
  warnings.forM Generation.warn
  return scope.actorNumber event.args

end Scope

/-! ## Generators with something attached -/

/-- The state of generation with that of what is attached to it. -/
structure Attached (σ : Type) where
  generator : Generator
  attached : σ

/-- A step of generation with something attached. -/
abbrev AttachedGeneration (σ α : Type) := EStateM Fault (Attached σ) α

/-- What something that is attached does on hearing that an event is begun, that a warning is
recorded, that the output is scanned in the name of an event, and that an address in it is
patched. -/
structure Listener (σ : Type) where
  begun : Event → σ → σ := fun _ heard => heard
  warned : Warning → σ → σ := fun _ heard => heard
  scanned : Output → Value → Value → σ → σ := fun _ _ _ heard => heard
  patched : Output → Nat → σ → σ := fun _ _ heard => heard

namespace AttachedGeneration

variable {σ : Type}

/-- A step that is not listened to. -/
def lift {α : Type} (x : Generation α) : AttachedGeneration σ α := fun state =>
  match x state.generator with
  | .ok a generator => .ok a { state with generator := generator }
  | .error fault generator => .error fault { state with generator := generator }

/-- Lets what is attached hear of something, which may depend on the output. -/
def tell (hear : Output → σ → σ) : AttachedGeneration σ Unit :=
  modify fun state => { state with attached := hear state.generator.output state.attached }

end AttachedGeneration

open AttachedGeneration in
/-- The steps of a generator with a listener.  Of a warning it hears when the generator has
recorded it, of a look at the output before that comes to anything. -/
def Listener.steps {σ : Type} (listener : Listener σ) : Steps (AttachedGeneration σ) where
  enter event := tell fun _ => listener.begun event
  orFail r := lift (Generation.orFail r)
  warn warning := do
    lift (Generation.warn warning)
    tell fun _ => listener.warned warning
  extend values := lift (Generation.extend values)
  reserve := lift Generation.reserve
  patchHere place := do
    tell fun output => listener.patched output place
    lift (Generation.patchHere place)
  check command args := do
    tell fun output => listener.scanned output command args
    lift (Generation.check command args)
  freeze := lift Generation.freeze

end SceneScript
