import SceneScript.Proofs.Acceptance
import SceneScript.Proofs.Disassembly

/-!
# Output over whole runs

An output is written to in any order: values are appended, addresses reserved, and reserved
addresses patched later, once, several times or never, while others are still open.  Any of
these may be refused.  What is in the output in the end is told by the history alone, that is,
by what was asked for and what the answers were.

The picture that is carried along a run is a list of cells, one for each slot: a slot holds a
value that was appended, or a half of the address that was reserved at some place.  Cells are
only ever added.  What stands in the slot of an address is null before the first patch that
succeeds, and after it a half of the address that the last such patch gave.

All this is said of runs that patch what they have reserved.  A patch elsewhere can overwrite a
value, and one at the very end can write its first half and be refused with the second.
-/

namespace SceneScript

/-- The word at a place is read from the two bytes that stand there. -/
theorem wordAt_of_getElem? {bytes : List UInt8} {place : Nat} {high low : UInt8}
    (hhigh : bytes[place]? = some high) (hlow : bytes[place + 1]? = some low) :
    wordAt bytes place = .ok (high.toNat * 256 + low.toNat) := by
  obtain ⟨hlt, hhigh⟩ := List.getElem?_eq_some_iff.mp hhigh
  obtain ⟨hlt', hlow⟩ := List.getElem?_eq_some_iff.mp hlow
  have hclamp : ∀ k : Nat, k ≤ bytes.length → Indexing.clamp bytes.length (k : Int) = k := by
    intro k hk
    have hneg : ¬ (k : Int) < 0 := by omega
    simp only [Indexing.clamp, if_neg hneg, Int.toNat_natCast, Nat.min_eq_left hk]
  have hstop : Indexing.clamp bytes.length ((place : Int) + 2) = place + 2 :=
    hclamp (place + 2) (by omega)
  have hstretch : Indexing.stretch bytes (some (place : Int))
      (some ((place : Int) + 2)) = [high, low] := by
    simp only [Indexing.stretch, Option.elim_some, hclamp place (by omega), hstop]
    rw [List.drop_take, List.drop_eq_getElem_cons hlt, List.drop_eq_getElem_cons hlt', hhigh, hlow,
      Nat.add_sub_cancel_left]
    rfl
  rw [wordAt, hstretch]

/-- The byte of a program at a position is that of the slot there. -/
theorem getElem?_filterMap_byte? {slots : List Value} (h : ∀ slot ∈ slots, slot.byte?.isSome)
    (position : Nat) :
    (slots.filterMap Value.byte?)[position]? = slots[position]?.bind Value.byte? := by
  have hmap : (slots.filterMap Value.byte?)[position]?.map some =
      slots[position]?.map Value.byte? := by
    rw [← List.getElem?_map, ← List.getElem?_map, Draft.map_byte?_eq h]
  cases hslot : slots[position]? with
  | none =>
      rw [hslot] at hmap
      exact Option.map_eq_none_iff.mp hmap
  | some slot =>
      rw [hslot, Option.map_some] at hmap
      obtain ⟨byte, hbyte, heq⟩ := Option.map_eq_some_iff.mp hmap
      rw [hbyte, heq]
      rfl

namespace Output

/-! ## Operations and their history -/

/-- What can be asked of an output.  What it is extended by is given as a value, one of those that
scripts and tables are made of; that a list of slots could be had from other things as well, read
once and then used up, is left out. -/
inductive Operation where
  | append (value : Value)
  | extend (values : Value)
  | reserve
  | patch (position address : Value)
  | check (command args : Value)
  | freeze

/-- What an operation that succeeds answers. -/
inductive Answer where
  | done
  | place (position : Nat)
  | finished (program : Program)

/-- Does an operation. -/
def perform : Operation → EStateM Fault Output Answer
  | .append value => do
    set ((← get).append value)
    return .done
  | .extend values => do
    set (← ofExcept ((← get).extendWith values))
    return .done
  | .reserve => do
    let out ← get
    set out.reserve
    return .place out.size
  | .patch position address => do
    patch position address
    return .done
  | .check command args => do
    ofExcept ((← get).check command args)
    return .done
  | .freeze => do return .finished (← ofExcept (← get).freeze)

/-- An operation that was done, with its answer. -/
structure Entry where
  operation : Operation
  answer : Except Fault Answer

/-- The output after operations that were done one after the other, whether they succeeded or
failed. -/
def runFrom (out : Output) : List Operation → Output
  | [] => out
  | operation :: rest => (stateAfter (perform operation) out).runFrom rest

/-- The same operations with their answers. -/
def historyFrom (out : Output) : List Operation → List Entry
  | [] => []
  | operation :: rest =>
    ⟨operation, outcome (perform operation) out⟩ ::
      (stateAfter (perform operation) out).historyFrom rest

/-- What operations make of an empty output. -/
def run (operations : List Operation) : Output := ({} : Output).runFrom operations

/-- The history of operations on an empty output. -/
def history (operations : List Operation) : List Entry := ({} : Output).historyFrom operations

/-- The values that an operation brings; only what can be gone through one by one brings any to
`extend`. -/
def Operation.values : Operation → List Value
  | .append value => [value]
  | .extend values => values.elements.toOption.getD []
  | _ => []

namespace Entry

/-- The values that were appended. -/
def appended (entry : Entry) : List Value :=
  match entry.answer with
  | .ok _ => entry.operation.values
  | .error _ => []

/-- The place that was reserved. -/
def reserved? (entry : Entry) : Option Nat :=
  match entry.answer with
  | .ok (.place position) => some position
  | _ => none

/-- The address that was patched in at a place, if that succeeded. -/
def patched? (place : Nat) (entry : Entry) : Option Int :=
  match entry.operation, entry.answer with
  | .patch position address, .ok _ =>
      if position.integer? = some (place : Int) then address.integer? else none
  | _, _ => none

end Entry

/-- All values that were appended, in order. -/
def appended (entries : List Entry) : List Value := entries.flatMap Entry.appended

/-- All places that were reserved, in order. -/
def reserved (entries : List Entry) : List Nat := entries.filterMap Entry.reserved?

/-- All addresses that were patched in at a place, in order. -/
def patchedAt (place : Nat) (entries : List Entry) : List Int :=
  entries.filterMap (Entry.patched? place)

/-- Every patch is at a place that was reserved before it. -/
def Disciplined (operations : List Operation) : Prop :=
  ∀ before position address later, operations = before ++ .patch position address :: later →
    ∃ place ∈ reserved (history before), position = .nat place

theorem runFrom_append (out : Output) (before later : List Operation) :
    out.runFrom (before ++ later) = (out.runFrom before).runFrom later := by
  induction before generalizing out with
  | nil => rfl
  | cons operation rest ih => exact ih _

theorem historyFrom_append (out : Output) (before later : List Operation) :
    out.historyFrom (before ++ later) =
      out.historyFrom before ++ (out.runFrom before).historyFrom later := by
  induction before generalizing out with
  | nil => rfl
  | cons operation rest ih => exact congrArg (_ :: ·) (ih _)

theorem run_concat (operations : List Operation) (operation : Operation) :
    run (operations ++ [operation]) = stateAfter (perform operation) (run operations) :=
  runFrom_append {} operations [operation]

theorem history_concat (operations : List Operation) (operation : Operation) :
    history (operations ++ [operation]) =
      history operations ++ [⟨operation, outcome (perform operation) (run operations)⟩] :=
  historyFrom_append {} operations [operation]

theorem Disciplined.of_append {before later : List Operation} (h : Disciplined (before ++ later)) :
    Disciplined before := by
  intro front position address back hsplit
  refine h front position address (back ++ later) ?_
  rw [hsplit, List.append_assoc, List.cons_append]

/-! ## What an operation can do -/

/-- `Effect out operation answer next`: all that an operation can do to an output.  If it is
refused, nothing changes. -/
inductive Effect (out : Output) : Operation → Except Fault Answer → Output → Prop
  | refused {operation : Operation} {fault : Fault} : operation.values = [] →
      Effect out operation (.error fault) out
  | added {operation : Operation} : (∀ position address, operation ≠ .patch position address) →
      Effect out operation (.ok .done) (out.extend operation.values)
  | reserved : Effect out .reserve (.ok (.place out.size)) out.reserve
  | patched {place n : Nat} {address : Value} : address.integer? = some (n : Int) → n ≤ 0xffff →
      Effect out (.patch (.nat place) address) (.ok .done)
        ⟨(out.slots.set place (.int (n / 256 : Nat))).set (place + 1) (.int (n % 256 : Nat))⟩
  | finished {program : Program} : Effect out .freeze (.ok (.finished program)) out

/-- An address that is not refused is an integer of 16 bits. -/
theorem patch_effect {out : Output} {place : Nat} {address : Value}
    (hplace : place + 1 < out.size) : (∃ fault, patch (.nat place) address out = .error fault out) ∨
      ∃ n : Nat, address.integer? = some (n : Int) ∧ n ≤ 0xffff ∧
        patch (.nat place) address out =
          .ok () ⟨(out.slots.set place (.int (n / 256 : Nat))).set (place + 1)
            (.int (n % 256 : Nat))⟩ := by
  unfold patch
  cases hrange : addressOutOfRange address with
  | error fault => exact .inl ⟨fault, rfl⟩
  | ok beyond =>
      cases beyond with
      | true => exact .inl ⟨_, rfl⟩
      | false =>
          cases hinteger : address.integer? with
          | none => exact .inl ⟨_, rfl⟩
          | some n =>
              have hbounds : 0 ≤ n ∧ n ≤ 0xffff := by
                unfold addressOutOfRange at hrange
                split at hrange
                · cases hinteger
                · rw [hinteger] at hrange
                  simp only [Except.ok.injEq, Bool.or_eq_false_iff,
                    decide_eq_false_iff_not] at hrange
                  omega
              obtain ⟨m, rfl⟩ := Int.eq_ofNat_of_zero_le hbounds.1
              refine .inr ⟨m, rfl, by omega, ?_⟩
              show EStateM.bind (overwrite place (.int (m / 256 : Nat)))
                (fun _ => overwrite (place + 1 : Nat) (.int (m % 256 : Nat))) out = _
              rw [EStateM.bind, overwrite_run _ (Nat.lt_of_succ_lt hplace)]
              exact overwrite_run _ (by rw [List.length_set]; exact hplace)

/-- Every operation has one of these effects, provided that patches stay inside the output. -/
theorem effect_perform {out : Output} {operation : Operation}
    (hinside : ∀ position address, operation = .patch position address →
      ∃ place : Nat, position = .nat place ∧ place + 1 < out.size) :
    Effect out operation (outcome (perform operation) out)
      (stateAfter (perform operation) out) := by
  cases operation with
  | append value =>
      refine .added ?_
      intro position address hpatch
      cases hpatch
  | extend values =>
      cases helements : values.elements with
      | error fault =>
          have hrun : perform (.extend values) out = .error fault out := by
            simp only [perform, get_bind, extendWith, helements]
            rfl
          rw [outcome, stateAfter, hrun]
          exact .refused (by rw [Operation.values, helements]; rfl)
      | ok items =>
          have hrun : perform (.extend values) out = .ok .done (out.extend items) := by
            simp only [perform, get_bind, extendWith, helements]
            rfl
          have hvalues : (Operation.extend values).values = items := by
            rw [Operation.values, helements]
            rfl
          rw [outcome, stateAfter, hrun, ← hvalues]
          refine .added ?_
          intro position address hpatch
          cases hpatch
  | reserve => exact .reserved
  | patch position address =>
      obtain ⟨place, rfl, hplace⟩ := hinside position address rfl
      rcases @patch_effect out place address hplace with ⟨fault, hrun⟩ | ⟨n, hn, hfits, hrun⟩
      · have hperform : perform (.patch (.nat place) address) out = .error fault out :=
          bind_error.mpr (.inl hrun)
        rw [outcome, stateAfter, hperform]
        exact .refused rfl
      · have hperform : perform (.patch (.nat place) address) out = .ok .done
            ⟨(out.slots.set place (.int (n / 256 : Nat))).set (place + 1) (.int (n % 256 : Nat))⟩ :=
          bind_ok.mpr ⟨(), _, hrun, rfl⟩
        rw [outcome, stateAfter, hperform]
        exact .patched hn hfits
  | check command args =>
      cases hcheck : out.check command args with
      | error fault =>
          have hrun : perform (.check command args) out = .error fault out := by
            simp only [perform, get_bind, hcheck]
            rfl
          rw [outcome, stateAfter, hrun]
          exact .refused rfl
      | ok _ =>
          have hrun : perform (.check command args) out = .ok .done (out.extend []) := by
            simp only [perform, get_bind, hcheck, extend, List.append_nil]
            rfl
          rw [outcome, stateAfter, hrun]
          refine .added ?_
          intro position address hpatch
          cases hpatch
  | freeze =>
      cases hfreeze : out.freeze with
      | error fault =>
          have hrun : perform .freeze out = .error fault out := by
            simp only [perform, get_bind, hfreeze]
            rfl
          rw [outcome, stateAfter, hrun]
          exact .refused rfl
      | ok program =>
          have hrun : perform .freeze out = .ok (.finished program) out := by
            simp only [perform, get_bind, hfreeze]
            rfl
          rw [outcome, stateAfter, hrun]
          exact .finished

/-! ## Cells -/

/-- What a slot is for: a value that was appended, or a half of the address at a place. -/
inductive Cell where
  | value (v : Value)
  | high (place : Nat)
  | low (place : Nat)

namespace Cell

/-- The slot in which a cell stands; a value may stand anywhere. -/
def StandsAt (slot : Nat) : Cell → Prop
  | .value _ => True
  | .high place => slot = place
  | .low place => slot = place + 1

/-- What a cell holds after a history. -/
def content (entries : List Entry) : Cell → Value
  | .value v => v
  | .high place => (patchedAt place entries).getLast?.elim .null fun n => .int (n / 256)
  | .low place => (patchedAt place entries).getLast?.elim .null fun n => .int (n % 256)

end Cell

/-- The cells that an operation added. -/
def Entry.cells (entry : Entry) : List Cell :=
  entry.appended.map .value ++ entry.reserved?.toList.flatMap fun place => [.high place, .low place]

/-- All cells, in order. -/
def cells (entries : List Entry) : List Cell := entries.flatMap Entry.cells

theorem cells_concat (entries : List Entry) (entry : Entry) :
    cells (entries ++ [entry]) = cells entries ++ entry.cells := by
  simp only [cells, List.flatMap_append, List.flatMap_cons, List.flatMap_nil, List.append_nil]

theorem patchedAt_concat (place : Nat) (entries : List Entry) (entry : Entry) :
    patchedAt place (entries ++ [entry]) =
      patchedAt place entries ++ (entry.patched? place).toList := by
  rw [patchedAt, List.filterMap_append]
  cases hn : entry.patched? place with
  | none => rw [List.filterMap_cons_none hn]; rfl
  | some n => rw [List.filterMap_cons_some hn]; rfl

theorem reserved_concat (entries : List Entry) (entry : Entry) :
    reserved (entries ++ [entry]) = reserved entries ++ entry.reserved?.toList := by
  rw [reserved, List.filterMap_append]
  cases hplace : entry.reserved? with
  | none => rw [List.filterMap_cons_none hplace]; rfl
  | some place => rw [List.filterMap_cons_some hplace]; rfl

theorem length_cells (entries : List Entry) :
    (cells entries).length = (appended entries).length + 2 * (reserved entries).length := by
  induction entries with
  | nil => rfl
  | cons entry rest ih =>
      simp only [cells, appended, reserved, List.flatMap_cons, List.length_append, Entry.cells,
        List.length_map] at ih ⊢
      cases hplace : entry.reserved? with
      | none =>
          rw [List.filterMap_cons_none hplace]
          simp only [Option.toList_none, List.flatMap_nil, List.length_nil]
          omega
      | some place =>
          rw [List.filterMap_cons_some hplace]
          simp only [Option.toList_some, List.flatMap_cons, List.flatMap_nil, List.append_nil,
            List.length_cons, List.length_nil]
          omega

theorem mem_cells_value {entries : List Entry} {v : Value} :
    .value v ∈ cells entries ↔ v ∈ appended entries := by
  simp [cells, appended, Entry.cells]

theorem mem_cells_high {entries : List Entry} {place : Nat} :
    .high place ∈ cells entries ↔ place ∈ reserved entries := by
  simp [cells, reserved, Entry.cells]

theorem mem_cells_low {entries : List Entry} {place : Nat} :
    .low place ∈ cells entries ↔ place ∈ reserved entries := by
  simp [cells, reserved, Entry.cells]

/-! ## The invariant of a run -/

/-- The history accounts for the output: each slot holds what its cell holds, the halves of an
address stand at its place, and only reserved places are patched, with addresses of 16 bits. -/
structure Accounts (entries : List Entry) (out : Output) : Prop where
  slots : out.slots = (cells entries).map (Cell.content entries)
  stands : ∀ (slot : Nat) cell, (cells entries)[slot]? = some cell → cell.StandsAt slot
  patched : ∀ place, ∀ n ∈ patchedAt place entries, place ∈ reserved entries ∧ 0 ≤ n ∧ n ≤ 0xffff

namespace Accounts

theorem size {entries : List Entry} {out : Output} (h : Accounts entries out) :
    out.size = (cells entries).length := by
  rw [Output.size, h.slots, List.length_map]

/-- The two halves of a reserved address stand next to each other. -/
theorem halves {entries : List Entry} {out : Output} (h : Accounts entries out) {place : Nat}
    (hplace : place ∈ reserved entries) :
    (cells entries)[place]? = some (.high place) ∧
      (cells entries)[place + 1]? = some (.low place) := by
  constructor
  · obtain ⟨slot, hslot⟩ := List.mem_iff_getElem?.mp (mem_cells_high.mpr hplace)
    obtain rfl : slot = place := h.stands slot _ hslot
    exact hslot
  · obtain ⟨slot, hslot⟩ := List.mem_iff_getElem?.mp (mem_cells_low.mpr hplace)
    obtain rfl : slot = place + 1 := h.stands slot _ hslot
    exact hslot

theorem inside {entries : List Entry} {out : Output} (h : Accounts entries out) {place : Nat}
    (hplace : place ∈ reserved entries) : place + 1 < out.size := by
  rw [h.size]
  exact (List.getElem?_eq_some_iff.mp (h.halves hplace).2).1

/-- Cells that are added without a patch leave the others as they are. -/
theorem add {entries : List Entry} {out : Output} (h : Accounts entries out) {entry : Entry}
    {values : List Value} (hpatch : ∀ place, entry.patched? place = none)
    (hvalues : entry.cells.map (Cell.content entries) = values)
    (hstands : ∀ (k : Nat) cell, entry.cells[k]? = some cell → cell.StandsAt (out.size + k)) :
    Accounts (entries ++ [entry]) (out.extend values) := by
  have hpatched : ∀ place, patchedAt place (entries ++ [entry]) = patchedAt place entries := by
    intro place
    rw [patchedAt_concat, hpatch place, Option.toList_none, List.append_nil]
  have hcontent : Cell.content (entries ++ [entry]) = Cell.content entries := by
    funext cell
    cases cell with
    | value v => rfl
    | high place => rw [Cell.content, Cell.content, hpatched]
    | low place => rw [Cell.content, Cell.content, hpatched]
  refine ⟨?_, ?_, ?_⟩
  · rw [cells_concat, hcontent, List.map_append, hvalues, ← h.slots]
    rfl
  · intro slot cell hslot
    rw [cells_concat] at hslot
    by_cases hlt : slot < (cells entries).length
    · rw [List.getElem?_append_left hlt] at hslot
      exact h.stands slot cell hslot
    · rw [List.getElem?_append_right (by omega)] at hslot
      have hcell := hstands _ cell hslot
      rwa [h.size, Nat.add_sub_cancel' (by omega)] at hcell
  · intro place n hn
    rw [hpatched] at hn
    obtain ⟨hplace, hbounds⟩ := h.patched place n hn
    rw [reserved_concat]
    exact ⟨List.mem_append_left _ hplace, hbounds⟩

theorem idle {entries : List Entry} {out : Output} (h : Accounts entries out) {entry : Entry}
    (hpatch : ∀ place, entry.patched? place = none) (hcells : entry.cells = []) :
    Accounts (entries ++ [entry]) out := by
  have hnext := h.add hpatch (congrArg (List.map _) hcells)
    fun k cell hcell => by rw [hcells] at hcell; cases hcell
  rwa [List.map_nil, extend, List.append_nil] at hnext

/-- A patch changes the two slots of its address and no other. -/
theorem patch {entries : List Entry} {out : Output} (h : Accounts entries out) {place n : Nat}
    (hplace : place ∈ reserved entries) {address : Value}
    (haddress : address.integer? = some (n : Int)) (hfits : n ≤ 0xffff) :
    Accounts (entries ++ [⟨.patch (.nat place) address, .ok .done⟩])
      ⟨(out.slots.set place (.int (n / 256 : Nat))).set (place + 1) (.int (n % 256 : Nat))⟩ := by
  have hcells : cells (entries ++ [⟨.patch (.nat place) address, .ok .done⟩]) = cells entries := by
    rw [cells_concat]
    exact List.append_nil _
  have hreserved : reserved (entries ++ [⟨.patch (.nat place) address, .ok .done⟩]) =
      reserved entries := by
    rw [reserved_concat]
    exact List.append_nil _
  have hself : patchedAt place (entries ++ [⟨.patch (.nat place) address, .ok .done⟩]) =
      patchedAt place entries ++ [(n : Int)] := by
    have hentry : Entry.patched? place ⟨.patch (.nat place) address, .ok .done⟩ = some (n : Int) :=
      (if_pos rfl).trans haddress
    rw [patchedAt_concat, hentry, Option.toList_some]
  have hother : ∀ other, other ≠ place →
      patchedAt other (entries ++ [⟨.patch (.nat place) address, .ok .done⟩]) =
        patchedAt other entries := by
    intro other hne
    have hneq : (Value.nat place).integer? ≠ some (other : Int) := by
      intro heq
      injection heq with heq
      omega
    have hentry : Entry.patched? other ⟨.patch (.nat place) address, .ok .done⟩ = none :=
      if_neg hneq
    rw [patchedAt_concat, hentry, Option.toList_none, List.append_nil]
  obtain ⟨hhigh, hlow⟩ := h.halves hplace
  refine ⟨?_, ?_, ?_⟩
  · apply List.ext_getElem?
    intro slot
    have hslots : out.slots[slot]? = (cells entries)[slot]?.map (Cell.content entries) := by
      rw [h.slots, List.getElem?_map]
    have hlength : place + 1 < out.slots.length := h.inside hplace
    rw [hcells, List.getElem?_map, List.getElem?_set, List.getElem?_set, List.length_set]
    by_cases hatLow : place + 1 = slot
    · subst hatLow
      rw [if_pos rfl, if_pos hlength, hlow, Option.map_some, Cell.content, hself,
        List.getLast?_concat]
      rfl
    · by_cases hatHigh : place = slot
      · subst hatHigh
        rw [if_neg hatLow, if_pos rfl, if_pos (by omega), hhigh, Option.map_some,
          Cell.content, hself, List.getLast?_concat]
        rfl
      · rw [if_neg hatLow, if_neg hatHigh, hslots]
        cases hcell : (cells entries)[slot]? with
        | none => rfl
        | some cell =>
            have hstands := h.stands slot cell hcell
            cases cell with
            | value v => rfl
            | high other =>
                have hne : other ≠ place := fun heq => hatHigh (heq ▸ hstands.symm)
                rw [Option.map_some, Option.map_some, Cell.content, Cell.content, hother other hne]
            | low other =>
                have hne : other ≠ place := fun heq => hatLow (heq ▸ hstands.symm)
                rw [Option.map_some, Option.map_some, Cell.content, Cell.content, hother other hne]
  · rw [hcells]
    exact h.stands
  · intro other m hm
    rw [hreserved]
    by_cases heq : other = place
    · subst heq
      rw [hself, List.mem_append, List.mem_singleton] at hm
      rcases hm with hm | rfl
      · exact h.patched _ m hm
      · exact ⟨hplace, by omega, by omega⟩
    · rw [hother other heq] at hm
      exact h.patched other m hm

/-- One operation: whatever it does, the history goes on accounting for the output. -/
theorem step {entries : List Entry} {out next : Output} (h : Accounts entries out)
    {operation : Operation} {answer : Except Fault Answer}
    (heffect : Effect out operation answer next)
    (hplace : ∀ position address, operation = .patch position address →
      ∃ place ∈ reserved entries, position = .nat place) :
    Accounts (entries ++ [⟨operation, answer⟩]) next := by
  cases heffect with
  | @refused _ fault =>
      have hpatch : ∀ place, Entry.patched? place ⟨operation, .error fault⟩ = none := by
        intro place
        cases operation <;> rfl
      exact h.idle hpatch rfl
  | added hpatch =>
      refine h.add ?_ ?_ ?_
      · intro place
        cases operation with
        | patch position address => exact absurd rfl (hpatch position address)
        | _ => rfl
      · simp only [Entry.cells, Entry.appended, Entry.reserved?, Option.toList_none,
          List.flatMap_nil, List.append_nil, List.map_map]
        exact List.map_id operation.values
      · intro k cell hcell
        have hmem := List.mem_of_getElem? hcell
        simp only [Entry.cells, Entry.appended, Entry.reserved?, Option.toList_none,
          List.flatMap_nil, List.append_nil, List.mem_map] at hmem
        obtain ⟨v, -, rfl⟩ := hmem
        trivial
  | reserved =>
      have hopen : patchedAt out.size entries = [] := by
        apply List.eq_nil_iff_forall_not_mem.mpr
        intro n hn
        have := h.inside (h.patched _ n hn).1
        omega
      refine h.add (fun _ => rfl) ?_ ?_
      · simp [Entry.cells, Entry.appended, Operation.values, Entry.reserved?, Cell.content, hopen]
      · intro k cell hcell
        rcases k with _ | _ | k
        · cases hcell
          rfl
        · cases hcell
          rfl
        · cases hcell
  | patched haddress hfits =>
      obtain ⟨place, hreserved, heq⟩ := hplace _ _ rfl
      injection heq with heq
      injection heq with heq
      rw [← Int.ofNat.inj heq] at hreserved
      exact h.patch hreserved haddress hfits
  | finished => exact h.idle (fun _ => rfl) rfl

end Accounts

theorem accounts_start : Accounts [] {} :=
  ⟨rfl, fun _ _ hcell => (by cases hcell), fun _ _ hn => absurd hn List.not_mem_nil⟩

/-! ## Runs -/

theorem effect_of_disciplined {before : List Operation} {operation : Operation}
    {later : List Operation} (h : Disciplined (before ++ operation :: later))
    (haccounts : Accounts (history before) (run before)) :
    Effect (run before) operation (outcome (perform operation) (run before))
      (stateAfter (perform operation) (run before)) := by
  apply effect_perform
  rintro position address rfl
  obtain ⟨place, hplace, rfl⟩ := h before position address later rfl
  exact ⟨place, rfl, haccounts.inside hplace⟩

/-- A whole run: the history accounts for the output after it.  The induction is on what is
still to be done. -/
theorem accounts_after {done operations : List Operation} (h : Disciplined (done ++ operations))
    (haccounts : Accounts (history done) (run done)) :
    Accounts (history (done ++ operations)) (run (done ++ operations)) := by
  induction operations generalizing done with
  | nil =>
      rw [List.append_nil]
      exact haccounts
  | cons operation rest ih =>
      have hstep : Accounts (history (done ++ [operation])) (run (done ++ [operation])) := by
        rw [history_concat, run_concat]
        refine haccounts.step (effect_of_disciplined h haccounts) ?_
        rintro position address rfl
        exact h done position address rest rfl
      have hsplit : done ++ operation :: rest = done ++ [operation] ++ rest := by
        rw [List.append_assoc, List.singleton_append]
      rw [hsplit] at h ⊢
      exact ih h hstep

theorem Disciplined.accounts {operations : List Operation} (h : Disciplined operations) :
    Accounts (history operations) (run operations) :=
  @accounts_after [] operations h accounts_start

/-! ## What the cells tell -/

theorem cells_grow (before later : List Operation) :
    cells (history before) <+: cells (history (before ++ later)) := by
  rw [history, history, historyFrom_append, cells, cells, List.flatMap_append]
  exact List.prefix_append _ _

theorem Effect.eq_of_error {out next : Output} {operation : Operation} {fault : Fault}
    (h : Effect out operation (.error fault) next) : next = out := by
  cases h with
  | refused => rfl

/-- What an operation brings is appended, or it brings nothing. -/
theorem Effect.appended_eq {out next : Output} {operation : Operation}
    {answer : Except Fault Answer} (h : Effect out operation answer next) :
    Entry.appended ⟨operation, answer⟩ = operation.values := by
  cases h with
  | refused hvalues => exact hvalues.symm
  | added => rfl
  | reserved => rfl
  | patched => rfl
  | finished => rfl

/-- A value that was appended stands in its cell. -/
theorem Disciplined.value_cell {before later : List Operation} {operation : Operation}
    (h : Disciplined (before ++ operation :: later)) {k : Nat} {value : Value}
    (hvalue : operation.values[k]? = some value) :
    (cells (history (before ++ operation :: later)))[(run before).size + k]? =
      some (.value value) := by
  have haccounts := h.of_append.accounts
  have happended := (effect_of_disciplined h haccounts).appended_eq
  have hsplit : before ++ operation :: later = before ++ [operation] ++ later := by
    rw [List.append_assoc, List.singleton_append]
  have hone : (cells (history (before ++ [operation])))[(run before).size + k]? =
      some (.value value) := by
    rw [history_concat, haccounts.size, cells_concat,
      List.getElem?_append_right (Nat.le_add_right _ _), Nat.add_sub_cancel_left, Entry.cells,
      happended, List.getElem?_append_left, List.getElem?_map, hvalue]
    · rfl
    · rw [List.length_map]
      exact (List.getElem?_eq_some_iff.mp hvalue).1
  obtain ⟨more, hmore⟩ := cells_grow (before ++ [operation]) later
  rw [hsplit, ← hmore, List.getElem?_append_left (List.getElem?_eq_some_iff.mp hone).1]
  exact hone

theorem Entry.value_of_getElem?_cells {entry : Entry} {slot : Nat} {value : Value}
    (h : entry.cells[slot]? = some (.value value)) :
    entry.operation.values[slot]? = some value := by
  rw [Entry.cells] at h
  rcases Nat.lt_or_ge slot (entry.appended.map Cell.value).length with hlt | hge
  · rw [List.getElem?_append_left hlt, List.getElem?_map] at h
    obtain ⟨v, hv, heq⟩ := Option.map_eq_some_iff.mp h
    cases heq
    unfold Entry.appended at hv
    split at hv
    · exact hv
    · cases hv
  · rw [List.getElem?_append_right hge] at h
    have hmem := List.mem_of_getElem? h
    simp at hmem

/-- A cell with a value is from an operation that brought the value. -/
theorem exists_of_value_cell {out : Output} {operations : List Operation} {slot : Nat}
    {value : Value} (h : (cells (out.historyFrom operations))[slot]? = some (.value value)) :
    ∃ before operation later k, operations = before ++ operation :: later ∧
      slot = (cells (out.historyFrom before)).length + k ∧ operation.values[k]? = some value := by
  induction operations generalizing out slot with
  | nil => cases h
  | cons operation rest ih =>
      rw [historyFrom, cells, List.flatMap_cons] at h
      rcases Nat.lt_or_ge slot
        (Entry.cells ⟨operation, outcome (perform operation) out⟩).length with hlt | hge
      · rw [List.getElem?_append_left hlt] at h
        exact ⟨[], operation, rest, slot, rfl, (Nat.zero_add slot).symm,
          Entry.value_of_getElem?_cells h⟩
      · rw [List.getElem?_append_right hge] at h
        obtain ⟨before, other, later, k, rfl, hslot, hvalue⟩ := ih h
        refine ⟨operation :: before, other, later, k, rfl, ?_, hvalue⟩
        rw [historyFrom, cells, List.flatMap_cons, List.length_append]
        rw [cells] at hslot
        omega

/-- A slot with a half of an address is a byte just if its place was patched. -/
theorem Accounts.fits_iff {entries : List Entry} {out : Output} (h : Accounts entries out)
    {place : Nat} {half : Int → Int} (hhalf : ∀ n, 0 ≤ n → n ≤ 0xffff → 0 ≤ half n ∧ half n ≤ 255) :
    ((patchedAt place entries).getLast?.elim Value.null fun n => Value.int (half n)).byte?.isSome ↔
      patchedAt place entries ≠ [] := by
  cases hlast : (patchedAt place entries).getLast? with
  | none =>
      rw [List.getLast?_eq_none_iff.mp hlast]
      exact iff_of_false Bool.false_ne_true (fun hne => hne rfl)
  | some n =>
      have hmem := List.mem_of_getLast? hlast
      obtain ⟨-, hlower, hupper⟩ := h.patched place n hmem
      refine iff_of_true ?_ (List.ne_nil_of_mem hmem)
      rw [Option.elim_some, Value.byte?_isSome_iff]
      exact ⟨half n, rfl, hhalf n hlower hupper⟩

/-- The output can be finished just if the values are bytes and the reserved places have been
patched. -/
theorem Accounts.freeze_iff {entries : List Entry} {out : Output} (h : Accounts entries out) :
    (∃ program, out.freeze = .ok program) ↔
      (∀ value ∈ appended entries, value.UpTo 255) ∧
      ∀ place ∈ reserved entries, patchedAt place entries ≠ [] := by
  have hhigh : ∀ n : Int, 0 ≤ n → n ≤ 0xffff → 0 ≤ n / 256 ∧ n / 256 ≤ 255 := by omega
  have hlow : ∀ n : Int, 0 ≤ n → n ≤ 0xffff → 0 ≤ n % 256 ∧ n % 256 ≤ 255 := by omega
  have hbytes : (∃ program, out.freeze = .ok program) ↔
      ∀ cell ∈ cells entries, (cell.content entries).byte?.isSome := by
    simp only [freeze_ok, exists_and_left, exists_eq, and_true]
    rw [h.slots, List.forall_mem_map]
  rw [hbytes]
  constructor
  · intro hcells
    refine ⟨fun value hvalue => ?_, fun place hplace => ?_⟩
    · exact Value.byte?_isSome_iff.mp (hcells _ (mem_cells_value.mpr hvalue))
    · exact (h.fits_iff hhigh).mp (hcells _ (mem_cells_high.mpr hplace))
  · rintro ⟨hvalues, hplaces⟩ cell hcell
    cases cell with
    | value v => exact Value.byte?_isSome_iff.mpr (hvalues v (mem_cells_value.mp hcell))
    | high place => exact (h.fits_iff hhigh).mpr (hplaces place (mem_cells_high.mp hcell))
    | low place => exact (h.fits_iff hlow).mpr (hplaces place (mem_cells_low.mp hcell))

/-- In the finished program, the word at a reserved place is the last address that was patched
in there. -/
theorem Accounts.wordAt_eq {entries : List Entry} {out : Output} (h : Accounts entries out)
    {program : Program} (hfreeze : out.freeze = .ok program) {place : Nat}
    (hplace : place ∈ reserved entries) :
    ∃ n : Nat, (patchedAt place entries).getLast? = some (n : Int) ∧
      wordAt program place = .ok n := by
  obtain ⟨hbytes, rfl⟩ := freeze_ok.mp hfreeze
  have hpatched := (h.freeze_iff.mp ⟨_, hfreeze⟩).2 place hplace
  cases hlast : (patchedAt place entries).getLast? with
  | none => exact absurd (List.getLast?_eq_none_iff.mp hlast) hpatched
  | some address =>
      obtain ⟨-, hlower, hupper⟩ := h.patched place address (List.mem_of_getLast? hlast)
      obtain ⟨n, rfl⟩ := Int.eq_ofNat_of_zero_le hlower
      obtain ⟨hhigh, hlow⟩ := h.halves hplace
      have hhighByte : (out.slots.filterMap Value.byte?)[place]? =
          some (UInt8.ofNat (n / 256)) := by
        rw [getElem?_filterMap_byte? hbytes, h.slots, List.getElem?_map, hhigh, Option.map_some,
          Cell.content, hlast]
        exact (Value.byte?_int (n / 256)).trans (if_pos (by omega))
      have hlowByte : (out.slots.filterMap Value.byte?)[place + 1]? =
          some (UInt8.ofNat (n % 256)) := by
        rw [getElem?_filterMap_byte? hbytes, h.slots, List.getElem?_map, hlow, Option.map_some,
          Cell.content, hlast]
        exact (Value.byte?_int (n % 256)).trans (if_pos (by omega))
      refine ⟨n, rfl, ?_⟩
      rw [wordAt_of_getElem? hhighByte hlowByte, UInt8.toNat_ofNat', UInt8.toNat_ofNat']
      congr 1
      omega

/-- **Output over whole runs.**  Let operations be done one after the other on an empty output,
with every patch at a place that was reserved before it.  The output never gets shorter, and its
size is the number of appended values and two for each reserved place.  An operation that fails
leaves the output as it was.  A value that was appended stays where it was appended, and there
are no other slots but those of the reserved places.  The output can be finished just if every
appended value is a byte and every reserved place was patched successfully; and then the word at
each of these places is the last address that was patched in there. -/
theorem run_accounted {operations : List Operation} (h : Disciplined operations) :
    (∀ before later, operations = before ++ later → (run before).size ≤ (run operations).size) ∧
    (run operations).size =
      (appended (history operations)).length + 2 * (reserved (history operations)).length ∧
    (∀ before operation later fault next, operations = before ++ operation :: later →
      perform operation (run before) = .error fault next → next = run before) ∧
    (∀ before operation later k value, operations = before ++ operation :: later →
      operation.values[k]? = some value →
      (run operations).slots[(run before).size + k]? = some value) ∧
    (∀ slot < (run operations).size,
      (∃ place ∈ reserved (history operations), slot = place ∨ slot = place + 1) ∨
      ∃ before operation later k value, operations = before ++ operation :: later ∧
        operation.values[k]? = some value ∧ slot = (run before).size + k) ∧
    ((∃ program, (run operations).freeze = .ok program) ↔
      (∀ value ∈ appended (history operations), value.UpTo 255) ∧
      ∀ place ∈ reserved (history operations), patchedAt place (history operations) ≠ []) ∧
    ∀ program, (run operations).freeze = .ok program → ∀ place ∈ reserved (history operations),
      ∃ n : Nat, (patchedAt place (history operations)).getLast? = some (n : Int) ∧
        wordAt program place = .ok n := by
  have haccounts := h.accounts
  refine ⟨?_, ?_, ?_, ?_, ?_, haccounts.freeze_iff, fun program hfreeze place hplace =>
    haccounts.wordAt_eq hfreeze hplace⟩
  · rintro before later rfl
    rw [haccounts.size, h.of_append.accounts.size]
    exact (cells_grow before later).length_le
  · rw [haccounts.size, length_cells]
  · rintro before operation later fault next rfl hrun
    have heffect := effect_of_disciplined h h.of_append.accounts
    rw [outcome, stateAfter, hrun] at heffect
    exact heffect.eq_of_error
  · rintro before operation later k value rfl hvalue
    rw [haccounts.slots, List.getElem?_map, h.value_cell hvalue]
    rfl
  · intro slot hslot
    rw [haccounts.size] at hslot
    have hcell := List.getElem?_eq_getElem hslot
    cases hkind : (cells (history operations))[slot] with
    | value v =>
        rw [hkind] at hcell
        obtain ⟨before, operation, later, k, rfl, hk, hvalue⟩ := exists_of_value_cell hcell
        refine .inr ⟨before, operation, later, k, v, rfl, hvalue, ?_⟩
        rw [h.of_append.accounts.size]
        exact hk
    | high place =>
        rw [hkind] at hcell
        exact .inl ⟨place, mem_cells_high.mp (List.mem_of_getElem? hcell),
          .inl (haccounts.stands slot _ hcell)⟩
    | low place =>
        rw [hkind] at hcell
        exact .inl ⟨place, mem_cells_low.mp (List.mem_of_getElem? hcell),
          .inr (haccounts.stands slot _ hcell)⟩

/-! ## Two addresses that are open at once -/

/-- Two addresses are reserved behind a truth value.  The second is refused an address of 17
bits and is patched twice, with the first in between. -/
def crossedOperations : List Operation :=
  [.append (.bool true), .reserve, .reserve, .patch (.nat 3) (.int 0x10000),
    .patch (.nat 3) (.int 0x102), .extend (.int 5), .patch (.nat 1) (.int 0xffff),
    .patch (.nat 3) (.int 7)]

theorem disciplined_crossed : Disciplined crossedOperations := by
  intro before position address later hsplit
  simp only [crossedOperations, List.cons_eq_append_iff, List.cons.injEq, reduceCtorEq,
    Operation.patch.injEq, List.nil_eq, List.append_eq_nil_iff, and_false, false_and, exists_false,
    or_false, false_or] at hsplit
  rcases hsplit with ⟨_, rfl, _, rfl, _, rfl, ⟨rfl, ⟨rfl, -⟩, -⟩ | ⟨_, rfl, ⟨rfl, ⟨rfl, -⟩, -⟩ |
    ⟨_, rfl, _, rfl, ⟨rfl, ⟨rfl, -⟩, -⟩ | ⟨_, rfl, rfl, ⟨rfl, -⟩, -⟩⟩⟩⟩
  · exact ⟨3, by decide, rfl⟩
  · exact ⟨3, by decide, rfl⟩
  · exact ⟨1, by decide, rfl⟩
  · exact ⟨3, by decide, rfl⟩

theorem run_accounted_crossed :
    Disciplined crossedOperations ∧ (run crossedOperations).size = 5 ∧
    ∃ program, (run crossedOperations).freeze = .ok program ∧ wordAt program 1 = .ok 0xffff ∧
      wordAt program 3 = .ok 7 := by
  obtain ⟨-, hsize, -, -, -, hfreeze, hwords⟩ := run_accounted disciplined_crossed
  have hvalues : ∀ value ∈ appended (history crossedOperations), value.UpTo 255 := by
    intro value hvalue
    obtain rfl : value = .bool true := List.mem_singleton.mp hvalue
    exact ⟨1, rfl, by decide, by decide⟩
  obtain ⟨program, hprogram⟩ := hfreeze.mpr ⟨hvalues, by decide⟩
  refine ⟨disciplined_crossed, hsize, program, hprogram, ?_, ?_⟩
  · obtain ⟨n, hlast, hword⟩ := hwords program hprogram 1 (by decide)
    obtain rfl : n = 0xffff := Int.ofNat.inj (Option.some.inj hlast).symm
    exact hword
  · obtain ⟨n, hlast, hword⟩ := hwords program hprogram 3 (by decide)
    obtain rfl : n = 7 := Int.ofNat.inj (Option.some.inj hlast).symm
    exact hword

end Output

end SceneScript
