import SceneScript.Bytecode.Operand
import SceneScript.Output

/-!
# The output, one equation an operation

`check` accepts output that holds nothing but bytes and open slots, `freeze` output that holds
nothing but bytes.  Patching refuses an address beyond 16 bits and leaves the output alone then;
else it overwrites two neighbouring slots by the two halves of the address, and open slots that
stand between a front and a back become the word of the address.
-/

namespace SceneScript

/-! ## Steps that carry a state -/

theorem get_bind {σ β : Type} (f : σ → EStateM Fault σ β) (s : σ) : (get >>= f) s = f s s := rfl

/-- A sequence of two steps succeeds when both do. -/
theorem bind_ok {σ α β : Type} {x : EStateM Fault σ α} {f : α → EStateM Fault σ β}
    {s s' : σ} {b : β} : (x >>= f) s = .ok b s' ↔ ∃ a t, x s = .ok a t ∧ f a t = .ok b s' := by
  show EStateM.bind x f s = .ok b s' ↔ _
  unfold EStateM.bind
  cases x s with
  | ok a t =>
      constructor
      · intro h
        exact ⟨a, t, rfl, h⟩
      · rintro ⟨_, _, ⟨⟩, h⟩
        exact h
  | error fault t => simp only [reduceCtorEq, false_and, exists_false]

/-- It fails when one of the two does. -/
theorem bind_error {σ α β : Type} {x : EStateM Fault σ α} {f : α → EStateM Fault σ β} {s s' : σ}
    {fault : Fault} :
    (x >>= f) s = .error fault s' ↔
      x s = .error fault s' ∨ ∃ a t, x s = .ok a t ∧ f a t = .error fault s' := by
  show EStateM.bind x f s = .error fault s' ↔ _
  unfold EStateM.bind
  cases x s with
  | ok a t =>
      constructor
      · intro h
        exact .inr ⟨a, t, rfl, h⟩
      · rintro (⟨⟨⟩⟩ | ⟨_, _, ⟨⟩, h⟩)
        exact h
  | error other t =>
      simp only [EStateM.Result.error.injEq, reduceCtorEq, false_and, exists_false, or_false]

/-- Where the first of two steps succeeds, the second goes on from the state it leaves. -/
theorem bind_run {σ α β : Type} {x : EStateM Fault σ α} {s t : σ} {a : α} (h : x s = .ok a t)
    (f : α → EStateM Fault σ β) : (x >>= f) s = f a t := by
  show EStateM.bind x f s = f a t
  rw [EStateM.bind, h]

/-- A step whose result is only renamed gives back what it did. -/
theorem return_ok {σ α β : Type} {x : EStateM Fault σ α} {f : α → β} {s t : σ} {b : β} :
    (x >>= fun a => pure (f a)) s = .ok b t ↔ ∃ a, x s = .ok a t ∧ f a = b := by
  rw [bind_ok]
  constructor
  · rintro ⟨a, _, hx, ⟨⟩⟩
    exact ⟨a, hx, rfl⟩
  · rintro ⟨a, hx, rfl⟩
    exact ⟨a, t, hx, rfl⟩

theorem return_error {σ α β : Type} {x : EStateM Fault σ α} {f : α → β} {s t : σ} {fault : Fault} :
    (x >>= fun a => pure (f a)) s = .error fault t ↔ x s = .error fault t := by
  rw [bind_error]
  refine or_iff_left ?_
  rintro ⟨_, _, -, ⟨⟩⟩

/-- The state that a step leaves, whether it succeeds or fails. -/
def stateAfter {σ α : Type} (x : EStateM Fault σ α) (s : σ) : σ :=
  match x s with
  | .ok _ t => t
  | .error _ t => t

theorem stateAfter_ok {σ α : Type} {x : EStateM Fault σ α} {s t : σ} {a : α} (h : x s = .ok a t) :
    stateAfter x s = t := by
  rw [stateAfter, h]

theorem stateAfter_error {σ α : Type} {x : EStateM Fault σ α} {s t : σ} {fault : Fault}
    (h : x s = .error fault t) : stateAfter x s = t := by
  rw [stateAfter, h]

/-- What a step gives back, whatever state it leaves. -/
def outcome {σ α : Type} (x : EStateM Fault σ α) (s : σ) : Except Fault α :=
  match x s with
  | .ok a _ => .ok a
  | .error fault _ => .error fault

theorem outcome_error {σ α : Type} {x : EStateM Fault σ α} {s t : σ} {fault : Fault}
    (h : x s = .error fault t) : outcome x s = .error fault := by
  rw [outcome, h]

/-- A sequence of two steps leaves the state of the first if that fails, and else that of the
second. -/
theorem stateAfter_bind {σ α β : Type} (x : EStateM Fault σ α) (f : α → EStateM Fault σ β) (s : σ) :
    (∃ fault, x s = .error fault (stateAfter (x >>= f) s)) ∨
      ∃ a t, x s = .ok a t ∧ stateAfter (x >>= f) s = stateAfter (f a) t := by
  cases hx : x s with
  | error fault t =>
      have hbind : (x >>= f) s = .error fault t := bind_error.mpr (.inl hx)
      exact .inl ⟨fault, by rw [stateAfter_error hbind]⟩
  | ok a t =>
      refine .inr ⟨a, t, rfl, ?_⟩
      cases hf : f a t with
      | ok b u => rw [stateAfter_ok hf, stateAfter_ok (bind_ok.mpr ⟨a, t, hx, hf⟩)]
      | error fault u =>
          rw [stateAfter_error hf, stateAfter_error (bind_error.mpr (.inr ⟨a, t, hx, hf⟩))]

/-! ## Words and bytes -/

theorem Value.byte?_int (n : Nat) :
    (Value.int n).byte? = if n ≤ 255 then some (UInt8.ofNat n) else none := by
  simp only [Value.byte?, Value.integer?, Scalar.integer?, Option.bind_some, Int.toNat_natCast]
  by_cases h : n ≤ 255
  · rw [if_pos h, if_pos ⟨by omega, by omega⟩]
  · rw [if_neg h, if_neg (by omega)]

theorem Value.isNull_of_byte? {v : Value} (h : v.byte?.isSome) : v.isNull = false := by
  unfold Value.isNull
  split
  · exact absurd h (by decide)
  · rfl

namespace Operand

theorem word_eq (n : Nat) : word n = [.int (n / 256 : Nat), .int (n % 256 : Nat)] := by
  have hhigh : high n = (n / 256 : Nat) := by
    rw [high, Int.fdiv_eq_ediv_of_nonneg _ (by decide)]
    rfl
  rw [word, hhigh]
  rfl

/-- A word is two bytes exactly if it fits in 16 bits. -/
theorem word_fits_iff (n : Nat) : (∀ v ∈ word n, v.byte?.isSome) ↔ n ≤ 0xffff := by
  rw [word_eq]
  simp only [List.mem_cons, List.not_mem_nil, or_false, forall_eq_or_imp, forall_eq,
    Value.byte?_int, Option.isSome_ite]
  omega

theorem filterMap_word {n : Nat} (h : n ≤ 0xffff) :
    (word n).filterMap Value.byte? = [UInt8.ofNat (n / 256), UInt8.ofNat (n % 256)] := by
  have hhigh : n / 256 ≤ 255 := by omega
  have hlow : n % 256 ≤ 255 := by omega
  rw [word_eq]
  simp only [List.filterMap_cons, List.filterMap_nil, Value.byte?_int, if_pos hhigh, if_pos hlow]

theorem bytes_word {n : Nat} (h : n ≤ 0xffff) :
    ∃ high low : UInt8, (word n).filterMap Value.byte? = [high, low] ∧
      high.toNat * 256 + low.toNat = n := by
  refine ⟨UInt8.ofNat (n / 256), UInt8.ofNat (n % 256), filterMap_word h, ?_⟩
  rw [UInt8.toNat_ofNat', UInt8.toNat_ofNat']
  omega

end Operand

namespace Output

/-! ## Checking and freezing -/

theorem acceptable_of_bytes {slots : List Value} (h : ∀ slot ∈ slots, slot.byte?.isSome) :
    ∀ slot ∈ slots, acceptable slot := by
  intro slot hslot
  rw [acceptable, h slot hslot, Bool.or_true]

theorem stray?_eq_none {out : Output} :
    out.stray? = none ↔ ∀ slot ∈ out.slots, acceptable slot := by
  unfold stray?
  cases h : out.slots.findIdx? fun slot => !acceptable slot with
  | none =>
      simp only [Option.bind_none, true_iff]
      intro slot hslot
      simpa using List.findIdx?_eq_none_iff.mp h slot hslot
  | some place =>
      obtain ⟨hlt, hbad, -⟩ := List.findIdx?_eq_some_iff_getElem.mp h
      simp only [Option.bind_some, List.getElem?_eq_getElem hlt, Option.map_some,
        reduceCtorEq, false_iff]
      intro hall
      have := hall _ (List.getElem_mem hlt)
      simp [this] at hbad

theorem stray?_eq_some {out : Output} {position : Nat} {value : Value}
    (h : out.stray? = some (position, value)) :
    out.slots[position]? = some value ∧ acceptable value = false := by
  unfold stray? at h
  obtain ⟨place, hfound, hplace⟩ := Option.bind_eq_some_iff.mp h
  obtain ⟨slot, hslot, heq⟩ := Option.map_eq_some_iff.mp hplace
  cases heq
  obtain ⟨hlt, hbad, -⟩ := List.findIdx?_eq_some_iff_getElem.mp hfound
  rw [List.getElem?_eq_getElem hlt] at hslot
  cases hslot
  exact ⟨List.getElem?_eq_getElem hlt, by simpa using hbad⟩

theorem stray?_eq_some_iff {out : Output} {position : Nat} {value : Value} :
    out.stray? = some (position, value) ↔
      out.slots[position]? = some value ∧ acceptable value = false ∧
        ∀ (k : Nat) slot, k < position → out.slots[k]? = some slot → acceptable slot = true := by
  constructor
  · intro h
    obtain ⟨hslot, hbad⟩ := stray?_eq_some h
    refine ⟨hslot, hbad, fun k slot hk hbefore => ?_⟩
    obtain ⟨place, hfound, hplace⟩ := Option.bind_eq_some_iff.mp h
    obtain ⟨_, -, heq⟩ := Option.map_eq_some_iff.mp hplace
    cases heq
    obtain ⟨_, -, hfirst⟩ := List.findIdx?_eq_some_iff_getElem.mp hfound
    obtain ⟨hlt, rfl⟩ := List.getElem?_eq_some_iff.mp hbefore
    simpa using hfirst k hk
  · rintro ⟨hslot, hbad, hfirst⟩
    obtain ⟨hlt, hvalue⟩ := List.getElem?_eq_some_iff.mp hslot
    have hfound : out.slots.findIdx? (fun slot => !acceptable slot) = some position := by
      refine List.findIdx?_eq_some_iff_getElem.mpr ⟨hlt, ?_, fun k hk => ?_⟩
      · rw [hvalue, hbad]
        rfl
      · rw [hfirst k _ hk (List.getElem?_eq_getElem (Nat.lt_trans hk hlt))]
        decide
    rw [stray?, hfound, Option.bind_some, hslot, Option.map_some]

theorem check_ok {out : Output} {command args : Value} :
    out.check command args = .ok () ↔ ∀ slot ∈ out.slots, acceptable slot := by
  rw [← stray?_eq_none, check]
  cases out.stray? with
  | none => simp
  | some found => simp

/-- A scan that fails names the first slot that is neither open nor a byte. -/
theorem check_error {out : Output} {command args : Value} {fault : Fault} :
    out.check command args = .error fault ↔
      ∃ position value, out.stray? = some (position, value) ∧
        fault = .compile (.outputFailed command args (.nat position) value) := by
  rw [check]
  cases out.stray? with
  | none => simp
  | some found => simp [Prod.ext_iff, and_assoc, eq_comm]

theorem freeze_ok {out : Output} {program : Program} :
    out.freeze = .ok program ↔
      (∀ slot ∈ out.slots, slot.byte?.isSome) ∧ program = out.slots.filterMap Value.byte? := by
  unfold freeze
  cases h : out.slots.findIdx? Value.isNull with
  | some place =>
      obtain ⟨hlt, hnull, -⟩ := List.findIdx?_eq_some_iff_getElem.mp h
      simp only [reduceCtorEq, false_iff, not_and]
      intro hall
      have := Value.isNull_of_byte? (hall _ (List.getElem_mem hlt))
      rw [hnull] at this
      exact absurd this (by decide)
  | none =>
      have hopen := List.findIdx?_eq_none_iff.mp h
      have hbytes : (∀ slot ∈ out.slots, acceptable slot) ↔
          ∀ slot ∈ out.slots, slot.byte?.isSome := by
        refine forall₂_congr fun slot hslot => ?_
        simp only [acceptable, hopen slot hslot, Bool.false_or]
      rw [← hbytes, ← @check_ok out .null .null]
      cases out.check .null .null with
      | ok u => cases u; simp [bind, Except.bind, pure, Except.pure, eq_comm]
      | error fault => simp [bind, Except.bind]

/-! ## Patching -/

theorem place?_nat {length place : Nat} (h : place < length) :
    Indexing.place? length (place : Int) = some place := by
  have hneg : ¬ (place : Int) < 0 := by omega
  simp only [Indexing.place?, if_neg hneg]
  rw [if_pos ⟨by omega, by omega⟩, Int.toNat_natCast]

theorem overwrite_run {out : Output} {place : Nat} (value : Value) (h : place < out.slots.length) :
    overwrite place value out = .ok () ⟨out.slots.set place value⟩ := by
  have hplace : Indexing.place? out.size (place : Int) = some place := place?_nat h
  rw [overwrite, get_bind, hplace]
  rfl

theorem addressOutOfRange_nat (n : Nat) :
    addressOutOfRange (.nat n) = .ok (decide (0xffff < n)) := by
  show Except.ok (decide ((n : Int) < 0) || decide ((0xffff : Int) < n)) = _
  have hneg : ¬ (n : Int) < 0 := by omega
  simp only [hneg, decide_false, Bool.false_or, Except.ok.injEq, decide_eq_decide]
  omega

/-- An address beyond 16 bits is refused, and the output is left alone. -/
theorem patch_refused {out : Output} {place n : Nat} (h : 0xffff < n) :
    patch (.nat place) (.nat n) out =
      .error (.compile (.outputFailed .null .null (.nat place) (.nat n))) out := by
  unfold patch
  rw [addressOutOfRange_nat, decide_eq_true h]
  rfl

theorem patch_run {out : Output} {place n : Nat} (h : n ≤ 0xffff)
    (hplace : place + 1 < out.slots.length) : patch (.nat place) (.nat n) out =
      .ok () ⟨(out.slots.set place (.int (n / 256 : Nat))).set (place + 1)
        (.int (n % 256 : Nat))⟩ := by
  have hrange : addressOutOfRange (.nat n) = .ok false := by
    rw [addressOutOfRange_nat, decide_eq_false (by omega)]
  unfold patch
  rw [hrange]
  show EStateM.bind (overwrite place (.int (n / 256 : Nat)))
    (fun _ => overwrite (place + 1 : Nat) (.int (n % 256 : Nat))) out = _
  rw [EStateM.bind, overwrite_run _ (by omega)]
  exact overwrite_run _ (by simpa using hplace)

/-- Two open slots between a front and a back are filled with the word of an address. -/
theorem patch_open {front back : List Value} {n : Nat} (h : n ≤ 0xffff) :
    patch (.nat front.length) (.nat n) ⟨front ++ .null :: .null :: back⟩ =
      .ok () ⟨front ++ Operand.word n ++ back⟩ := by
  rw [patch_run h (by simp), Operand.word_eq]
  simp

end Output

end SceneScript
