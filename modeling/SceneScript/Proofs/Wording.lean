import SceneScript.Generation.Warning

/-!
# What can be told

Messages quote values, and a value is put in words integer by integer.  So there are words for
it just if none of its integers, at whatever depth and in names of fields as well, has too many
digits (`Value.Short`).  Everything that is told is built from such words: `Told` says of one
text after the other that it exists just under that condition, and that nothing else keeps it
from existing.
-/

namespace SceneScript

/-! ## Results -/

theorem result_bind_ok {ε α β : Type} {x : Except ε α} {f : α → Except ε β} {b : β} :
    (x >>= f) = .ok b ↔ ∃ a, x = .ok a ∧ f a = .ok b := by
  cases x with
  | error e =>
      constructor
      · intro h
        cases h
      · rintro ⟨_, h, -⟩
        cases h
  | ok a =>
      constructor
      · intro h
        exact ⟨a, rfl, h⟩
      · rintro ⟨_, h, hf⟩
        cases h
        exact hf

theorem result_bind_error {ε α β : Type} {x : Except ε α} {f : α → Except ε β} {e : ε} :
    (x >>= f) = .error e ↔ x = .error e ∨ ∃ a, x = .ok a ∧ f a = .error e := by
  cases x with
  | error other =>
      constructor
      · intro h
        cases h
        exact .inl rfl
      · rintro (h | ⟨_, h, -⟩)
        · cases h
          rfl
        · cases h
  | ok a =>
      constructor
      · intro h
        exact .inr ⟨a, rfl, h⟩
      · rintro (h | ⟨_, h, hf⟩)
        · cases h
        · cases h
          exact hf

/-- There is a result just if `short` holds; if it does not, there are too many digits to write. -/
inductive Told {α : Type} (short : Prop) : Except TooManyDigits α → Prop
  | ok {a : α} : short → Told short (.ok a)
  | error : ¬ short → Told short (.error .toWrite)

namespace Told

variable {α β : Type} {p q : Prop} {x : Except TooManyDigits α}

theorem congr (h : Told p x) (hpq : p ↔ q) : Told q x := by
  cases h with
  | ok hp => exact .ok (hpq.mp hp)
  | error hp => exact .error fun hq => hp (hpq.mpr hq)

theorem pure (a : α) : Told True (.ok a) := .ok trivial

theorem bind {f : α → Except TooManyDigits β} (hx : Told p x) (hf : ∀ a, Told q (f a)) :
    Told (p ∧ q) (x >>= f) := by
  cases hx with
  | error hp => exact .error fun h => hp h.1
  | @ok a hp =>
      show Told (p ∧ q) (f a)
      exact (hf a).congr ⟨fun hq => ⟨hp, hq⟩, And.right⟩

/-- What is only put together keeps the condition of its part. -/
theorem map {f : α → β} (hx : Told p x) : Told p (x >>= fun a => Pure.pure (f a)) :=
  (hx.bind fun a => Told.pure (f a)).congr ⟨And.left, fun hp => ⟨hp, trivial⟩⟩

theorem ok_iff (h : Told p x) : (∃ a, x = .ok a) ↔ p := by
  cases h with
  | ok hp => exact iff_of_true ⟨_, rfl⟩ hp
  | error hp =>
      refine iff_of_false ?_ hp
      rintro ⟨_, h⟩
      cases h

theorem error_iff (h : Told p x) {e : TooManyDigits} : x = .error e ↔ e = .toWrite ∧ ¬ p := by
  cases h with
  | ok hp =>
      constructor
      · intro h
        cases h
      · rintro ⟨-, hnot⟩
        exact absurd hp hnot
  | error hp =>
      constructor
      · intro h
        cases h
        exact ⟨rfl, hp⟩
      · rintro ⟨rfl, -⟩
        rfl

end Told

/-! ## Values -/

/-- An integer has no more digits than may be written. -/
def FewDigits (n : Int) : Prop := (Nat.toDigits 10 n.natAbs).length ≤ digitLimit

instance (n : Int) : Decidable (FewDigits n) := inferInstanceAs (Decidable (_ ≤ _))

theorem length_toDigits_le {n k : Nat} (hk : 0 < k) :
    (Nat.toDigits 10 n).length ≤ k ↔ n < Nat.pow 10 k :=
  Nat.length_toDigits_le_iff (by decide) hk

theorem fewDigits_iff {n : Int} : FewDigits n ↔ n.natAbs < Nat.pow 10 digitLimit :=
  length_toDigits_le (by decide)

theorem told_decimal (n : Int) : Told (FewDigits n) (decimal n) := by
  unfold decimal
  split
  · exact .ok ‹_›
  · exact .error ‹_›

/-- The integer that a scalar holds, if it does. -/
def Scalar.integers : Scalar → List Int
  | .int n => [n]
  | _ => []

namespace Value

mutual
/-- The integers in a value, at every depth. -/
def integers : Value → List Int
  | .scalar s => s.integers
  | .list items => integersOf items
  | .object fields => fieldIntegers fields

/-- The integers in the items of a list. -/
def integersOf : List Value → List Int
  | [] => []
  | v :: rest => integers v ++ integersOf rest

/-- The integers in the fields of an object, their names included. -/
def fieldIntegers : List (Scalar × Value) → List Int
  | [] => []
  | (key, v) :: rest => key.integers ++ (integers v ++ fieldIntegers rest)
end

/-- No integer in the value has too many digits. -/
def Short (v : Value) : Prop := ∀ n ∈ v.integers, FewDigits n

end Value

/-- The scalar is not an integer of too many digits. -/
def Scalar.Short (s : Scalar) : Prop := ∀ n ∈ s.integers, FewDigits n

theorem Scalar.told_literal (s : Scalar) : Told s.Short s.literal := by
  cases s with
  | int n => exact (told_decimal n).congr List.forall_mem_singleton.symm
  | bool b => cases b <;> exact .ok fun _ hn => absurd hn List.not_mem_nil
  | _ => exact .ok fun _ hn => absurd hn List.not_mem_nil

theorem Scalar.told_display (s : Scalar) : Told s.Short s.display := by
  cases s with
  | str text => exact .ok fun _ hn => absurd hn List.not_mem_nil
  | _ => exact Scalar.told_literal _

namespace Value

mutual
/-- A value is spelled out just if all its integers can be. -/
theorem told_literal : ∀ v : Value, Told v.Short v.literal
  | .scalar s => s.told_literal
  | .list items => (told_literals items).map
  | .object fields => (told_fieldLiterals fields).map

theorem told_literals : ∀ items : List Value,
    Told (∀ n ∈ integersOf items, FewDigits n) (literals items)
  | [] => .ok fun _ hn => absurd hn List.not_mem_nil
  | v :: rest =>
    ((told_literal v).bind fun _ => (told_literals rest).map).congr List.forall_mem_append.symm

theorem told_fieldLiterals : ∀ fields : List (Scalar × Value),
    Told (∀ n ∈ fieldIntegers fields, FewDigits n) (fieldLiterals fields)
  | [] => .ok fun _ hn => absurd hn List.not_mem_nil
  | (key, v) :: rest => by
    refine (key.told_literal.bind fun _ =>
      (told_literal v).bind fun _ => (told_fieldLiterals rest).map).congr ?_
    simp only [fieldIntegers, List.forall_mem_append, Scalar.Short, Short]
end

theorem told_display (v : Value) : Told v.Short v.display := by
  cases v with
  | scalar s => exact s.told_display
  | list items => exact told_literal _
  | object fields => exact told_literal _

theorem short_null : Short .null := fun _ hn => absurd hn List.not_mem_nil

theorem short_str (text : String) : Short (.str text) := fun _ hn => absurd hn List.not_mem_nil

theorem short_int {n : Int} : Short (.int n) ↔ FewDigits n := List.forall_mem_singleton

end Value

/-! ## Fallbacks and errors -/

namespace Fallback

/-- What a fallback quotes has no integer of too many digits. -/
def Short : Fallback → Prop
  | .actorNotInScene id | .musicNotFound id | .sceneNotFound id => id.Short
  | .invalidEncounter encounter => encounter.Short
  | .noBytecode _ => True

theorem told_wording (cause : Fallback) : Told cause.Short cause.wording := by
  cases cause with
  | actorNotInScene id => exact id.told_display.map
  | musicNotFound id => exact id.told_display.map
  | sceneNotFound id => exact id.told_display.map
  | invalidEncounter encounter => exact encounter.told_literal.map
  | noBytecode kind => exact .ok trivial

theorem warning_told {cause : Fallback} {message : String} (told : cause.wording = .ok message) :
    cause.warning = .ok ⟨cause, message, told⟩ := by
  unfold warning
  split
  · rename_i found h
    obtain rfl : message = found := Except.ok.inj (told.symm.trans h)
    rfl
  · rename_i e h
    cases told.symm.trans h

/-- The warning about a fallback is the one that has it for its cause. -/
theorem warning_ok {cause : Fallback} {w : Warning} : cause.warning = .ok w ↔ w.cause = cause := by
  constructor
  · intro h
    unfold warning at h
    split at h
    · cases h
      rfl
    · cases h
  · rintro rfl
    exact warning_told w.told

/-- A fallback that cannot be told is a fault. -/
theorem warning_error {cause : Fallback} {fault : Fault} :
    cause.warning = .error fault ↔
      fault = .malformed (.tooManyDigits .toWrite) ∧ ¬ cause.Short := by
  cases hwording : cause.wording with
  | ok message =>
      rw [warning_told hwording]
      refine iff_of_false (fun h => by cases h) fun h => ?_
      exact h.2 (cause.told_wording.ok_iff.mp ⟨_, hwording⟩)
  | error e =>
      obtain ⟨rfl, hlong⟩ := cause.told_wording.error_iff.mp hwording
      have hwarning : cause.warning = .error (.malformed (.tooManyDigits .toWrite)) := by
        unfold warning
        split
        · rename_i h
          cases hwording.symm.trans h
        · rename_i h
          cases hwording.symm.trans h
          rfl
      rw [hwarning, Except.error.injEq, and_iff_left hlong, eq_comm]

end Fallback

/-- The warnings about fallbacks are those that have them for their causes. -/
theorem mapM_warning_ok {causes : List Fallback} {warnings : List Warning} :
    causes.mapM Fallback.warning = .ok warnings ↔ warnings.map Warning.cause = causes := by
  induction causes generalizing warnings with
  | nil =>
      rw [List.mapM_nil, List.map_eq_nil_iff]
      exact ⟨fun h => by cases h; rfl, fun h => by rw [h]; rfl⟩
  | cons cause rest ih =>
      simp only [List.mapM_cons, result_bind_ok, Fallback.warning_ok, ih]
      constructor
      · rintro ⟨w, hw, others, hothers, h⟩
        cases h
        rw [List.map_cons, hw, hothers]
      · intro h
        obtain ⟨w, others, rfl, hw, hothers⟩ := List.map_eq_cons_iff.mp h
        exact ⟨w, hw, others, hothers, rfl⟩

theorem mapM_warning_error {causes : List Fallback} {fault : Fault} :
    causes.mapM Fallback.warning = .error fault ↔
      fault = .malformed (.tooManyDigits .toWrite) ∧ ∃ cause ∈ causes, ¬ cause.Short := by
  induction causes with
  | nil =>
      rw [List.mapM_nil]
      refine iff_of_false (fun h => by cases h) ?_
      rintro ⟨-, _, hmem, -⟩
      cases hmem
  | cons cause rest ih =>
      simp only [List.mapM_cons, result_bind_error, Fallback.warning_error, ih, List.mem_cons,
        or_and_right, exists_or, exists_eq_left]
      constructor
      · rintro (⟨hfault, hlong⟩ | ⟨_, -, ⟨hfault, hlong⟩ | ⟨_, -, h⟩⟩)
        · exact ⟨hfault, .inl hlong⟩
        · exact ⟨hfault, .inr hlong⟩
        · cases h
      · rintro ⟨hfault, hlong | hlong⟩
        · exact .inl ⟨hfault, hlong⟩
        · cases hfirst : cause.warning with
          | error other => exact .inl ⟨hfault, (Fallback.warning_error.mp hfirst).2⟩
          | ok w => exact .inr ⟨w, rfl, .inl ⟨hfault, hlong⟩⟩

/-- No detail of the error, nor the name of one, is or holds an integer of too many digits. -/
def CompileError.Short (e : CompileError) : Prop :=
  e.kind.Short ∧ ∀ detail ∈ e.details, detail.1.Short ∧ detail.2.Short

theorem told_details (details : Fields) :
    Told (∀ detail ∈ details, detail.1.Short ∧ detail.2.Short)
      (details.mapM CompileError.detailText) := by
  induction details with
  | nil => exact .ok fun _ hd => absurd hd List.not_mem_nil
  | cons detail rest ih =>
      rw [List.mapM_cons]
      have hdetail : Told (detail.1.Short ∧ detail.2.Short) (CompileError.detailText detail) :=
        detail.1.told_display.bind fun _ => detail.2.told_literal.map
      exact (hdetail.bind fun _ => ih.map).congr (by rw [List.forall_mem_cons])

/-- An error is told just if none of its details has an integer of too many digits. -/
theorem CompileError.told_message (e : CompileError) : Told e.Short e.message := by
  unfold message
  split
  · rename_i hnone
    refine e.kind.told_display.congr ?_
    simp [Short, hnone]
  · exact e.kind.told_display.bind fun _ => (told_details _).map

end SceneScript
