import SceneScript.Bytecode.Duration
import SceneScript.Proofs.Generation
import SceneScript.Proofs.Rounding

/-!
# How a duration is split

The chunks of a duration are defined with a bound on their number.  The loop itself has none: as
long as time is left it takes off a second, or what is left.  `Splits` is that loop, and a
duration whose value is positive and either whole or below `2 ^ 53` leaves it after as many
rounds as there are seconds, rounded up.  Taking off a second is exact for such durations, so
that the amounts of time left are the duration less one, less two and so on, until at most a
second is left.  Beyond `2 ^ 53` taking one off may change nothing.

All chunks but the last are full seconds.  The last is sixty times what is left, rounded to the
format and then up to whole ticks.  Rounding to the format does not carry it past an integer,
but may carry it onto one from above, and then a tick is lost: a twentieth of a second is a
little more in the format, and still takes three ticks.
-/

namespace SceneScript.Seconds

/-- The number of seconds, if it is finite. -/
def value? : Seconds → Option ℚ
  | .whole n => some n
  | .fractional x => x.value?

/-- A second can be taken off exactly, as often as there is one. -/
def IsExact (s : Seconds) (q : ℚ) : Prop := (∃ n, s = .whole n) ∨ q < 2 ^ 53

/-- `Splits s chunks`: taking off a second, or what is left, as long as there is time left,
ends, and yields these chunks. -/
inductive Splits : Seconds → List Int → Prop
  | spent {s : Seconds} : s.isPositive = false → Splits s []
  | chunk {s : Seconds} {rest : List Int} : s.isPositive = true → Splits s.afterFirst rest →
      Splits s (s.firstChunk.ticks :: rest)

/-- All ticks of a duration. -/
def total (chunks : List Int) : Int := chunks.foldl (· + ·) 0

/-! ## The loop and its bound -/

theorem Splits.unique {s : Seconds} {chunks others : List Int} (h : Splits s chunks)
    (hothers : Splits s others) : others = chunks := by
  induction h generalizing others with
  | spent hspent =>
      cases hothers with
      | spent => rfl
      | chunk hleft => rw [hspent] at hleft; cases hleft
  | chunk hleft _ ih =>
      cases hothers with
      | spent hspent => rw [hspent] at hleft; cases hleft
      | chunk _ hrest => rw [ih hrest]

/-- A bound that is not too small does not show. -/
theorem Splits.chunksUpTo_eq {s : Seconds} {chunks : List Int} (h : Splits s chunks) {count : Nat}
    (hcount : chunks.length ≤ count) : chunksUpTo count s = chunks := by
  induction h generalizing count with
  | spent hspent =>
      cases count with
      | zero => rfl
      | succ count => rw [chunksUpTo, hspent]; rfl
  | chunk hleft _ ih =>
      cases count with
      | zero => cases hcount
      | succ count => rw [chunksUpTo, hleft, if_pos rfl, ih (Nat.le_of_succ_le_succ hcount)]

/-! ## One round -/

variable {s : Seconds} {q : ℚ}

theorem isPositive_iff (h : s.value? = some q) : s.isPositive = true ↔ 0 < q := by
  cases s with
  | whole n =>
      cases h
      rw [isPositive, decide_eq_true_eq]
      exact_mod_cast Iff.rfl
  | fractional x =>
      rw [isPositive, Binary64.isPositive, beq_iff_eq, (Binary64.compareInt?_of_value? h 0).2,
        Int.cast_zero]

theorem isBelowOne_iff (h : s.value? = some q) : s.isBelowOne = true ↔ q < 1 := by
  cases s with
  | whole n =>
      cases h
      rw [isBelowOne, decide_eq_true_eq]
      exact_mod_cast Iff.rfl
  | fractional x =>
      rw [isBelowOne, beq_iff_eq, (Binary64.compareInt?_of_value? h 1).1, Int.cast_one]

theorem roundedUp_eq (h : s.value? = some q) : s.roundedUp = ⌈q⌉.toNat := by
  cases s with
  | whole n =>
      cases h
      rw [roundedUp, Int.ceil_intCast]
  | fractional x => rw [roundedUp, Binary64.ceil?_of_value? h, Option.getD_some]

theorem ticks_firstChunk_of_one_le (h : s.value? = some q) (hone : 1 ≤ q) :
    s.firstChunk.ticks = 60 := by
  rw [firstChunk, if_neg fun hbelow => absurd ((isBelowOne_iff h).mp hbelow) (not_lt.mpr hone)]
  rfl

/-- A full second is taken off exactly. -/
theorem value?_afterFirst (h : s.value? = some q) (hexact : s.IsExact q) (hone : 1 ≤ q) :
    s.afterFirst.value? = some (q - 1) ∧ s.afterFirst.IsExact (q - 1) := by
  unfold afterFirst
  rw [if_neg fun hbelow => absurd ((isBelowOne_iff h).mp hbelow) (not_lt.mpr hone)]
  cases s with
  | whole n =>
      cases h
      refine ⟨?_, .inl ⟨n - 1, rfl⟩⟩
      rw [value?, Int.cast_sub, Int.cast_one]
  | fractional x =>
      have hbound : q < 2 ^ 53 := by
        rcases hexact with ⟨n, hn⟩ | hbound
        · cases hn
        · exact hbound
      exact ⟨Binary64.value?_minusInt_one h hone hbound, .inr (by linarith)⟩

/-! ## The last round -/

/-- What the last chunk is like, after some full seconds of a duration. -/
structure IsLast (q : ℚ) (seconds : Nat) (last : Int) : Prop where
  positive : 1 ≤ last
  atMost : last ≤ 60
  total_ge : ⌈60 * q⌉ - 1 ≤ 60 * seconds + last
  total_le : 60 * seconds + last ≤ ⌈60 * q⌉
  of_whole : q = seconds + 1 → last = 60

/-- Less than a second takes all its ticks, or one less. -/
theorem isLast_ticks (h : s.value? = some q) (hpositive : 0 < q) (hbelow : q < 1) :
    IsLast q 0 s.ticks := by
  cases s with
  | whole n =>
      cases h
      have hlow : 0 < n := by exact_mod_cast hpositive
      have hhigh : n < 1 := by exact_mod_cast hbelow
      omega
  | fractional x =>
      obtain ⟨r, hr, hrpositive, hlower, hupper⟩ :=
        @Binary64.value?_timesNat x q h hpositive hbelow ticksPerSecond (by decide)
          (by norm_num [ticksPerSecond])
      rw [ticksPerSecond, Nat.cast_ofNat] at hlower hupper
      have hticks : (fractional x).ticks = ⌈r⌉ := by
        rw [ticks, Binary64.ceil?_of_value? hr, Option.getD_some]
      obtain ⟨ceiling, hceiling⟩ : ∃ ceiling : ℕ, ⌈60 * q⌉ = ceiling + 1 := by
        have hceil : 1 ≤ ⌈60 * q⌉ := Int.one_le_ceil_iff.mpr (by linarith)
        exact ⟨(⌈60 * q⌉ - 1).toNat, by omega⟩
      obtain ⟨hlow, hhigh⟩ := Int.ceil_eq_iff.mp hceiling
      push_cast at hlow hhigh
      have hge : (ceiling : ℚ) ≤ r := hlower ceiling (by linarith)
      have hle : r ≤ (ceiling + 1 : ℕ) := hupper _ (by push_cast; exact hhigh)
      have hsixty : r ≤ (60 : ℕ) := hupper 60 (by push_cast; linarith)
      rw [hticks]
      refine ⟨Int.one_le_ceil_iff.mpr hrpositive, Int.ceil_le.mpr hsixty, ?_, ?_, fun hone => ?_⟩
      · have hreached : (ceiling : ℤ) ≤ ⌈r⌉ := by exact_mod_cast hge.trans (Int.le_ceil r)
        omega
      · have hkept : ⌈r⌉ ≤ (ceiling + 1 : ℕ) := Int.ceil_le.mpr hle
        omega
      · rw [Nat.cast_zero] at hone
        linarith

/-- At most a second is left: one more chunk, and the loop ends. -/
theorem splits_last (h : s.value? = some q) (hexact : s.IsExact q) (hpositive : 0 < q)
    (hle : q ≤ 1) : ∃ last, Splits s [last] ∧ IsLast q 0 last := by
  have hleft := (isPositive_iff h).mpr hpositive
  rcases hle.lt_or_eq with hbelow | rfl
  · have hbelow' := (isBelowOne_iff h).mpr hbelow
    have hspent : s.afterFirst.isPositive = false := by
      unfold afterFirst
      rw [if_pos hbelow']
      rfl
    refine ⟨_, .chunk hleft (.spent hspent), ?_⟩
    rw [firstChunk, if_pos hbelow']
    exact isLast_ticks h hpositive hbelow
  · obtain ⟨hrest, -⟩ := value?_afterFirst h hexact le_rfl
    have hspent : s.afterFirst.isPositive = false := by
      rw [← Bool.not_eq_true, isPositive_iff hrest, sub_self]
      exact lt_irrefl 0
    refine ⟨_, .chunk hleft (.spent hspent), ?_⟩
    rw [ticks_firstChunk_of_one_le h le_rfl]
    have hceil : ⌈(60 : ℚ) * 1⌉ = 60 := by rw [mul_one]; exact Int.ceil_ofNat 60
    exact ⟨by decide, by decide, by rw [hceil]; decide, by rw [hceil]; decide, fun _ => rfl⟩

/-! ## Durations of any kind -/

theorem exists_value?_of_below_one (h : s.isPositive = true) (hbelow : s.isBelowOne = true) :
    ∃ q, s.value? = some q := by
  cases s with
  | whole n => exact ⟨n, rfl⟩
  | fractional x => exact Binary64.exists_value?_of_below_one h (eq_of_beq hbelow)

theorem ticks_firstChunk (h : s.isPositive = true) :
    0 ≤ s.firstChunk.ticks ∧ s.firstChunk.ticks ≤ ticksPerSecond := by
  unfold firstChunk
  split
  · rename_i hbelow
    obtain ⟨q, hq⟩ := exists_value?_of_below_one h hbelow
    have hlast := isLast_ticks hq ((isPositive_iff hq).mp h) ((isBelowOne_iff hq).mp hbelow)
    exact ⟨Int.le_trans (by decide) hlast.positive, hlast.atMost⟩
  · exact ⟨by decide, by decide⟩

/-- Every chunk of a duration is from 0 to 60 ticks long, whatever the duration is. -/
theorem mem_chunks {s : Seconds} {t : Int} (h : t ∈ s.chunks) : 0 ≤ t ∧ t ≤ ticksPerSecond := by
  have hupTo : ∀ count (s : Seconds), t ∈ chunksUpTo count s → 0 ≤ t ∧ t ≤ ticksPerSecond := by
    intro count
    induction count with
    | zero => intro s hs; cases hs
    | succ count ih =>
        intro s hs
        rw [chunksUpTo] at hs
        split at hs
        · rename_i hpositive
          rcases List.mem_cons.mp hs with rfl | hs
          · exact ticks_firstChunk hpositive
          · exact ih _ hs
        · cases hs
  exact hupTo _ s h

/-- The operand of an instruction that waits for a chunk is a byte. -/
theorem fits_chunks (s : Seconds) (opcode : Opcode) :
    ∀ d ∈ s.chunks.map (fun ticks => (⟨opcode, [.int ticks]⟩ : Draft)), d.Fits := by
  intro d hd v hv
  obtain ⟨ticks, hticks, rfl⟩ := List.mem_map.mp hd
  obtain rfl := List.mem_singleton.mp hv
  obtain ⟨hlow, hhigh⟩ := mem_chunks hticks
  obtain ⟨n, rfl⟩ := Int.eq_ofNat_of_zero_le hlow
  rw [Value.byte?_int, if_pos (Int.ofNat_le.mp (Int.le_trans hhigh (by decide)))]
  rfl

/-! ## The whole loop -/

/-- After some full seconds, at most one is left, which makes the last chunk. -/
theorem splits_between (seconds : ℕ) (h : s.value? = some q) (hexact : s.IsExact q)
    (hlow : (seconds : ℚ) < q) (hhigh : q ≤ seconds + 1) :
    ∃ last, Splits s (List.replicate seconds 60 ++ [last]) ∧ IsLast q seconds last := by
  -- the duration itself gets shorter from round to round, so the induction is over all durations
  induction seconds generalizing s q with
  | zero =>
      rw [Nat.cast_zero] at hlow hhigh
      exact splits_last h hexact hlow (by linarith)
  | succ seconds ih =>
      rw [Nat.cast_succ] at hlow hhigh
      have hseconds : (0 : ℚ) ≤ seconds := Nat.cast_nonneg seconds
      obtain ⟨hrest, hexactRest⟩ := value?_afterFirst h hexact (by linarith)
      obtain ⟨last, hsplits, hlast⟩ := ih hrest hexactRest (by linarith) (by linarith)
      have hceil : ⌈60 * (q - 1)⌉ = ⌈60 * q⌉ - 60 := by
        rw [mul_sub, mul_one]
        exact Int.ceil_sub_ofNat _ 60
      refine ⟨last, ?_, hlast.positive, hlast.atMost, ?_, ?_, fun hwhole => hlast.of_whole ?_⟩
      · have hsplits' := Splits.chunk ((isPositive_iff h).mpr (by linarith)) hsplits
        rwa [ticks_firstChunk_of_one_le h (by linarith)] at hsplits'
      · have := hlast.total_ge
        push_cast
        omega
      · have := hlast.total_le
        push_cast
        omega
      · rw [hwhole]
        push_cast
        ring

theorem total_replicate (seconds : ℕ) (last : ℤ) :
    total (List.replicate seconds 60 ++ [last]) = 60 * seconds + last := by
  have hfull : ∀ start : ℤ, (List.replicate seconds (60 : ℤ)).foldl (· + ·) start =
      start + 60 * seconds := by
    induction seconds with
    | zero => simp
    | succ seconds ih =>
        intro start
        rw [List.replicate_succ, List.foldl_cons, ih]
        push_cast
        ring
  rw [total, List.foldl_append, hfull, zero_add]
  rfl

/-- The chunks of a duration are those of the loop: full seconds, as many as there are before
the last. -/
theorem exists_chunks (h : s.value? = some q) (hpositive : 0 < q) (hexact : s.IsExact q) :
    ∃ (seconds : ℕ) (last : ℤ), ⌈q⌉ = seconds + 1 ∧ s.chunks = List.replicate seconds 60 ++ [last] ∧
      Splits s s.chunks ∧ IsLast q seconds last := by
  have hceil : 1 ≤ ⌈q⌉ := Int.one_le_ceil_iff.mpr hpositive
  obtain ⟨seconds, hseconds⟩ : ∃ seconds : ℕ, ⌈q⌉ = seconds + 1 := ⟨(⌈q⌉ - 1).toNat, by omega⟩
  obtain ⟨hlow, hhigh⟩ := Int.ceil_eq_iff.mp hseconds
  push_cast at hlow hhigh
  obtain ⟨last, hsplits, hlast⟩ := splits_between seconds h hexact (by linarith) hhigh
  have hchunks : s.chunks = List.replicate seconds 60 ++ [last] := by
    refine hsplits.chunksUpTo_eq ?_
    rw [roundedUp_eq h, hseconds, List.length_append, List.length_replicate, List.length_singleton]
    omega
  exact ⟨seconds, last, hseconds, hchunks, by rw [hchunks]; exact hsplits, hlast⟩

/-- **A duration is split exactly.**  Let a duration be positive, and whole or a finite number
of the format below `2 ^ 53`.  The loop that takes off seconds ends, with the chunks of the
duration and no others.  There are as many as its seconds rounded up; all but the last are sixty
ticks, and the last has one to sixty.  Together they are its ticks rounded up, or one less, and
exactly its ticks if it is a whole number of seconds.  The instructions that are emitted for it
have these chunks as operands, and what they fill passes the scan. -/
theorem splits_exactly (s : Seconds) (q : ℚ) (hvalue : s.value? = some q) (hpositive : 0 < q)
    (hexact : s.IsExact q) :
    s.Splits s.chunks ∧ (∀ others, s.Splits others → others = s.chunks) ∧
    (s.chunks.length : ℤ) = ⌈q⌉ ∧
    (∃ last, s.chunks = List.replicate (s.chunks.length - 1) 60 ++ [last] ∧ 1 ≤ last ∧ last ≤ 60) ∧
    ⌈60 * q⌉ - 1 ≤ total s.chunks ∧ total s.chunks ≤ ⌈60 * q⌉ ∧
    (∀ n : ℤ, q = n → total s.chunks = 60 * n) ∧
    ∀ (opcode : Opcode) (args : Fields), ofArgument (args.get "time") = s →
      (Scope.emitTicks opcode args).drafts = s.chunks.map (fun ticks => ⟨opcode, [.int ticks]⟩) ∧
      ∀ command fields,
        Output.check ⟨(Scope.emitTicks opcode args).slots⟩ command fields = .ok () := by
  obtain ⟨seconds, last, hseconds, hchunks, hsplits, hlast⟩ := exists_chunks hvalue hpositive hexact
  have hlength : s.chunks.length = seconds + 1 := by
    rw [hchunks, List.length_append, List.length_replicate, List.length_singleton]
  have htotal : total s.chunks = 60 * seconds + last := by rw [hchunks, total_replicate]
  refine ⟨hsplits, fun others hothers => hsplits.unique hothers, ?_, ?_, ?_, ?_, ?_, ?_⟩
  · rw [hlength, hseconds]
    push_cast
    rfl
  · rw [hlength]
    exact ⟨last, hchunks, hlast.positive, hlast.atMost⟩
  · rw [htotal]
    exact hlast.total_ge
  · rw [htotal]
    exact hlast.total_le
  · rintro n rfl
    rw [Int.ceil_intCast] at hseconds
    rw [htotal, hlast.of_whole (by rw [hseconds]; push_cast; rfl), hseconds]
    ring
  · rintro opcode args rfl
    exact ⟨rfl, fun _ _ => Output.check_ok.mpr (Draft.acceptable_flatMap (fits_chunks _ opcode))⟩

/-- The number of the format nearest to a twentieth, which is a little more. -/
def twentieth : Binary64 := .finite false 7205759403792794 (-57) (by decide)

/-- A twentieth of a second has a little more than three ticks, and takes three. -/
theorem splits_exactly_twentieth :
    ∃ q, (fractional twentieth).value? = some q ∧ 0 < q ∧ q < 2 ^ 53 ∧ ⌈60 * q⌉ = 4 ∧
      (fractional twentieth).Splits [3] ∧ total (fractional twentieth).chunks = ⌈60 * q⌉ - 1 ∧
      (Scope.emitTicks .wait [(.str "time", .float twentieth)]).drafts = [⟨.wait, [.int 3]⟩] := by
  have hchunks : (fractional twentieth).chunks = [3] := by decide +kernel
  have hvalue : (fractional twentieth).value? =
      some (7205759403792794 / 144115188075855872 : ℚ) := by
    simp [twentieth, value?, Binary64.value?, Binary64.ratio?]
  have hceil : ⌈60 * (7205759403792794 / 144115188075855872 : ℚ)⌉ = 4 := by
    rw [Int.ceil_eq_iff]
    norm_num
  have hbound : (7205759403792794 / 144115188075855872 : ℚ) < 2 ^ 53 := by norm_num
  obtain ⟨hsplits, -, -, -, -, -, -, hemits⟩ :=
    splits_exactly _ _ hvalue (by norm_num) (.inr hbound)
  obtain ⟨hdrafts, -⟩ := hemits .wait [(.str "time", .float twentieth)] rfl
  rw [hchunks] at hsplits hdrafts
  exact ⟨_, hvalue, by norm_num, hbound, hceil, hsplits, by rw [hchunks, hceil]; rfl, hdrafts⟩

example : (fractional (Binary64.ofFraction false 5 2)).chunks = [60, 60, 30] := by decide +kernel

end SceneScript.Seconds
