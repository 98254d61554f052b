import SceneScript.Bytecode.Instruction

/-!
# The output under construction

While a program is generated its bytes stand in slots.  A slot is filled with whatever an event
asked for, so it may hold something that is no byte; that is found by `check`, which can name
the event.  A slot that holds null is open: it was reserved for an address that is not known
yet.  `patch` fills the two slots of an address, and `freeze` turns finished output into a
program.

Filling and reserving only ever add slots at the end, and patching only changes the two it
names.
-/

namespace SceneScript

/-- Output under construction. -/
structure Output where
  slots : List Value := []

namespace Output

/-- The number of slots, which is the address of the next byte. -/
def size (out : Output) : Nat := out.slots.length

/-- Adds slots at the end. -/
def extend (out : Output) (values : List Value) : Output := ⟨out.slots ++ values⟩

/-- Adds one slot at the end. -/
def append (out : Output) (value : Value) : Output := out.extend [value]

/-- Adds the items of a value at the end. -/
def extendWith (out : Output) (values : Value) : Except Fault Output := do
  return out.extend (← values.elements)

/-- Adds two open slots for an address; they start at the size the output had. -/
def reserve (out : Output) : Output := out.extend [.null, .null]

/-! ## Looking at slots -/

/-- The slot at a position, counted from either end. -/
def slotAt (out : Output) (position : Value) : Except Fault Value :=
  match position.integer? with
  | none => .error .wrongType
  | some i =>
    match (Indexing.place? out.size i).bind fun place => out.slots[place]? with
    | some value => .ok value
    | none => .error .outOfRange

/-- An end of a stretch of slots; null stands for the end of the output. -/
def stretchEnd (v : Value) : Except Fault (Option Int) :=
  if v.isNull then .ok none
  else match v.integer? with
    | some i => .ok (some i)
    | none => .error .wrongType

/-- The slots from one position to another. -/
def slotsBetween (out : Output) (start stop : Value) : Except Fault (List Value) := do
  return Indexing.stretch out.slots (← stretchEnd start) (← stretchEnd stop)

/-! ## Patching an address -/

/-- Whether an address does not fit in 16 bits; only numbers can be asked. -/
def addressOutOfRange (address : Value) : Except Fault Bool :=
  match address with
  | .float x => .ok (x.compareInt? 0 == some .lt || x.compareInt? 0xffff == some .gt)
  | v =>
    match v.integer? with
    | some n => .ok (n < 0 || 0xffff < n)
    | none => .error .wrongType

/-- Overwrites one slot. -/
def overwrite (position : Int) (value : Value) : EStateM Fault Output Unit := do
  let out ← get
  match Indexing.place? out.size position with
  | some place => set (⟨out.slots.set place value⟩ : Output)
  | none => throw .outOfRange

/-- Fills two slots with an address, high byte first.  An address that does not fit is refused
before anything is written; a position is refused when its slot is reached. -/
def patch (position address : Value) : EStateM Fault Output Unit := do
  if ← ofExcept (addressOutOfRange address) then
    throw (.compile (.outputFailed .null .null position address))
  match address.integer?, position.integer? with
  | some n, some place =>
    overwrite place (.int (n / 256))
    overwrite (place + 1) (.int (n % 256))
  | _, _ => throw .wrongType

/-! ## Checking and freezing -/

/-- Whether a slot is acceptable so far: it is open or holds a byte. -/
def acceptable (slot : Value) : Bool := slot.isNull || slot.byte?.isSome

/-- The first slot that is neither open nor a byte, and its position. -/
def stray? (out : Output) : Option (Nat × Value) :=
  (out.slots.findIdx? fun slot => !acceptable slot).bind fun place =>
    out.slots[place]?.map fun slot => (place, slot)

/-- Refuses output with a slot that is neither open nor a byte, in the name of an event. -/
def check (out : Output) (command args : Value) : Except Fault Unit :=
  match out.stray? with
  | none => .ok ()
  | some (position, value) => .error (.compile (.outputFailed command args (.nat position) value))

/-- The finished program; nothing may be open, and every slot must be a byte. -/
def freeze (out : Output) : Except Fault Program :=
  match out.slots.findIdx? Value.isNull with
  | some position => .error (.compile (.outputFailed .null .null (.nat position) .null))
  | none => do
    out.check .null .null
    return out.slots.filterMap Value.byte?

end Output

end SceneScript
