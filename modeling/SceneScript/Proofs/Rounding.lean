import Mathlib.Algebra.Order.Field.Power
import Mathlib.Data.Rat.Floor
import Mathlib.Tactic.Linarith
import Mathlib.Tactic.Positivity
import Mathlib.Tactic.Ring
import SceneScript.Number.Binary64

/-!
# What rounding keeps

A finite number of the format is a dyadic rational, `value?`.  A quotient is rounded by choosing
an exponent first and then the nearest mantissa at it.  About the second step no more is needed
than that it is monotone: a natural number that bounds the scaled quotient from below or above
bounds the mantissa too.  About the first step it is that the scaled quotient has 53 bits,
unless the exponent is the least of the format.

From these follow three facts about quotients that are not too large.  One that is a number of
the format is kept as it is, so that subtracting one is exact as long as there are units to
subtract from.  Rounding does not carry a quotient past an integer, from below or from above.
And what is not smaller than the least number of the format does not become zero.
-/

namespace SceneScript.Binary64

/-- The rational number that a finite number of the format is. -/
def value? (x : Binary64) : Option ℚ := x.ratio?.map fun ratio => ratio.1 / ratio.2

/-! ## Powers of two -/

theorem cast_pow_two (n : ℕ) : ((Nat.pow 2 n : ℕ) : ℚ) = 2 ^ n := by
  rw [Nat.pow_eq, Nat.cast_pow, Nat.cast_ofNat]

theorem two_zpow (e : ℤ) : (2 : ℚ) ^ e = 2 ^ e.toNat / 2 ^ (-e).toNat := by
  rcases Int.eq_nat_or_neg e with ⟨n, rfl | rfl⟩
  · simp
  · simp

theorem zpow_two_mono {e e' : ℤ} (h : e ≤ e') : (2 : ℚ) ^ e ≤ 2 ^ e' :=
  zpow_le_zpow_right₀ (by norm_num) h

theorem zpow_two_add (e e' : ℤ) : (2 : ℚ) ^ (e + e') = 2 ^ e * 2 ^ e' :=
  zpow_add₀ (by norm_num) e e'

/-- Scaling by a power of two multiplies a quotient and a mantissa by the same. -/
theorem exists_scale {den : ℕ} (hden : 0 < den) (e : ℤ) :
    ∃ c : ℚ, 0 < c ∧ (∀ num : ℕ, ((num * Nat.pow 2 (-e).toNat : ℕ) : ℚ) = num / den * c) ∧
      ∀ k : ℕ, ((k * (den * Nat.pow 2 e.toNat) : ℕ) : ℚ) = k * 2 ^ e * c := by
  have hden' : (0 : ℚ) < den := by exact_mod_cast hden
  refine ⟨den * 2 ^ (-e).toNat, by positivity, fun num => ?_, fun k => ?_⟩
  · rw [Nat.cast_mul, cast_pow_two, ← mul_assoc, div_mul_cancel₀ _ hden'.ne']
  · rw [Nat.cast_mul, Nat.cast_mul, cast_pow_two, two_zpow]
    field_simp

/-- Comparing a mantissa with a scaled quotient is comparing what it stands for with the
quotient. -/
theorem mul_le_scaled_iff {num den k : ℕ} (hden : 0 < den) (e : ℤ) :
    k * (den * Nat.pow 2 e.toNat) ≤ num * Nat.pow 2 (-e).toNat ↔ (k : ℚ) * 2 ^ e ≤ num / den := by
  obtain ⟨c, hc, hnum, hk⟩ := exists_scale hden e
  rw [← Nat.cast_le (α := ℚ), hnum, hk, mul_le_mul_iff_left₀ hc]

theorem scaled_le_mul_iff {num den k : ℕ} (hden : 0 < den) (e : ℤ) :
    num * Nat.pow 2 (-e).toNat ≤ k * (den * Nat.pow 2 e.toNat) ↔ (num / den : ℚ) ≤ k * 2 ^ e := by
  obtain ⟨c, hc, hnum, hk⟩ := exists_scale hden e
  rw [← Nat.cast_le (α := ℚ), hnum, hk, mul_le_mul_iff_left₀ hc]

/-! ## The exponent -/

theorem zpow_log2_bounds {n : ℕ} (hn : 0 < n) :
    (2 : ℚ) ^ (n.log2 : ℤ) ≤ n ∧ (n : ℚ) < 2 ^ ((n.log2 : ℤ) + 1) := by
  have hlow := Nat.log2_self_le (Nat.pos_iff_ne_zero.mp hn)
  have hhigh := @Nat.lt_log2_self n
  exact ⟨by exact_mod_cast hlow, by exact_mod_cast hhigh⟩

/-- A quotient lies within a factor of two of the power that the lengths of its parts suggest. -/
theorem log2_bounds {num den : ℕ} (hnum : 0 < num) (hden : 0 < den) :
    (2 : ℚ) ^ ((num.log2 : ℤ) - den.log2 - 1) < num / den ∧
      (num / den : ℚ) < 2 ^ ((num.log2 : ℤ) - den.log2 + 1) := by
  have hden' : (0 : ℚ) < den := by exact_mod_cast hden
  obtain ⟨hnumLow, hnumHigh⟩ := zpow_log2_bounds hnum
  obtain ⟨hdenLow, hdenHigh⟩ := zpow_log2_bounds hden
  constructor
  · rw [lt_div_iff₀ hden']
    calc (2 : ℚ) ^ ((num.log2 : ℤ) - den.log2 - 1) * den
        < 2 ^ ((num.log2 : ℤ) - den.log2 - 1) * 2 ^ ((den.log2 : ℤ) + 1) :=
          mul_lt_mul_of_pos_left hdenHigh (by positivity)
      _ = 2 ^ (num.log2 : ℤ) := by
          rw [← zpow_two_add]
          congr 1
          omega
      _ ≤ num := hnumLow
  · rw [div_lt_iff₀ hden']
    calc (num : ℚ) < 2 ^ ((num.log2 : ℤ) + 1) := hnumHigh
      _ = 2 ^ ((num.log2 : ℤ) - den.log2 + 1) * 2 ^ (den.log2 : ℤ) := by
          rw [← zpow_two_add]
          congr 1
          omega
      _ ≤ 2 ^ ((num.log2 : ℤ) - den.log2 + 1) * den :=
        mul_le_mul_of_nonneg_left hdenLow (by positivity)

/-- At the chosen exponent a quotient has at most 53 bits before the point, and has all of them
unless the exponent is the least. -/
theorem exponentFor_spec {num den : ℕ} (hnum : 0 < num) (hden : 0 < den) :
    -1074 ≤ exponentFor num den ∧
      (exponentFor num den = -1074 ∨ (2 : ℚ) ^ (exponentFor num den + 52) ≤ num / den) ∧
      (num / den : ℚ) < 2 ^ (exponentFor num den + 53) := by
  obtain ⟨hlow, hhigh⟩ := log2_bounds hnum hden
  unfold exponentFor
  dsimp only
  generalize (num.log2 : ℤ) - den.log2 = length at *
  have hquotient : Nat.pow 2 53 ≤ num * Nat.pow 2 (-(length - 53)).toNat /
      (den * Nat.pow 2 (length - 53).toNat) ↔ (2 : ℚ) ^ length ≤ num / den := by
    have hscaled : 0 < den * Nat.pow 2 (length - 53).toNat := Nat.mul_pos hden (Nat.two_pow_pos _)
    rw [Nat.le_div_iff_mul_le hscaled, mul_le_scaled_iff hden, cast_pow_two, ← zpow_natCast,
      ← zpow_two_add, Nat.cast_ofNat, add_sub_cancel]
  -- whichever exponent is taken of the two, at it the quotient has 53 bits
  have hfull : ∀ e : ℤ, (2 : ℚ) ^ (e + 52) ≤ num / den → (num / den : ℚ) < 2 ^ (e + 53) →
      -1074 ≤ max (-1074) e ∧ (max (-1074) e = -1074 ∨ (2 : ℚ) ^ (max (-1074) e + 52) ≤ num / den) ∧
        (num / den : ℚ) < 2 ^ (max (-1074) e + 53) := by
    intro e hfrom hto
    refine ⟨le_max_left _ _, ?_, lt_of_lt_of_le hto (zpow_two_mono ?_)⟩
    · rcases max_choice (-1074) e with hmax | hmax
      · exact .inl hmax
      · rw [hmax]
        exact .inr hfrom
    · have := le_max_right (-1074) e
      omega
  by_cases hlarge : (2 : ℚ) ^ length ≤ num / den
  · rw [if_pos (hquotient.mpr hlarge)]
    refine hfull _ ?_ ?_
    · rwa [show length - 53 + 1 + 52 = length by omega]
    · rwa [show length - 53 + 1 + 53 = length + 1 by omega]
  · rw [if_neg fun h => hlarge (hquotient.mp h)]
    refine hfull _ ?_ ?_
    · rw [show length - 53 + 52 = length - 1 by omega]
      exact hlow.le
    · rw [show length - 53 + 53 = length by omega]
      exact lt_of_not_ge hlarge

/-- The mantissa of a quotient that is not too large counts fractions of one. -/
theorem exponentFor_nonpos {num den : ℕ} (hnum : 0 < num) (hden : 0 < den)
    (h : (num / den : ℚ) ≤ 2 ^ 52) : exponentFor num den ≤ 0 := by
  obtain ⟨-, hbits, -⟩ := exponentFor_spec hnum hden
  by_contra hlarge
  have hfull := hbits.resolve_left (by omega)
  have hmono := @zpow_two_mono 53 (exponentFor num den + 52) (by omega)
  norm_num at hmono h
  linarith

/-! ## The mantissa -/

theorem roundQuotient_le {num den k : ℕ} (hden : 0 < den) (h : num ≤ k * den) :
    roundQuotient num den ≤ k := by
  have hquotient : num / den ≤ k := Nat.div_le_of_le_mul (by rwa [Nat.mul_comm] at h)
  rcases Nat.eq_or_lt_of_le hquotient with hq | hq
  · -- the quotient is the bound already, so nothing is left over to round up
    have hdecompose := Nat.div_add_mod num den
    rw [hq, Nat.mul_comm] at hdecompose
    have hrem : num % den = 0 := by omega
    simp only [roundQuotient, hrem, Nat.mul_zero, hden, if_true, hquotient]
  · have hbit : num / den % 2 < 2 := Nat.mod_lt _ (by decide)
    unfold roundQuotient
    dsimp only
    split
    · exact hquotient
    · split
      · exact hq
      · omega

theorem le_roundQuotient {num den k : ℕ} (hden : 0 < den) (h : k * den ≤ num) :
    k ≤ roundQuotient num den := by
  have hquotient : k ≤ num / den := (Nat.le_div_iff_mul_le hden).mpr h
  unfold roundQuotient
  dsimp only
  split
  · exact hquotient
  · split
    · exact Nat.le_succ_of_le hquotient
    · exact Nat.le_add_right_of_le hquotient

theorem value?_pack {mantissa : ℕ} {exponent : ℤ} (h : Canonical mantissa exponent) :
    (pack false mantissa exponent).value? = some ((mantissa : ℚ) * 2 ^ exponent) := by
  rw [pack, dif_pos h, value?, ratio?, Option.map_some, two_zpow, mul_div_assoc']
  simp

/-- A quotient that is not too large is rounded to a mantissa at its exponent.  Natural numbers
that bound the scaled quotient bound the mantissa. -/
theorem exists_mantissa {num den : ℕ} (hnum : 0 < num) (hden : 0 < den)
    (hexponent : exponentFor num den ≤ 0) :
    ∃ mantissa : ℕ, (ofFraction false num den).value? =
      some ((mantissa : ℚ) * 2 ^ exponentFor num den) ∧
      (∀ k : ℕ, (k : ℚ) * 2 ^ exponentFor num den ≤ num / den → k ≤ mantissa) ∧
      ∀ k : ℕ, (num / den : ℚ) ≤ k * 2 ^ exponentFor num den → mantissa ≤ k := by
  obtain ⟨hleast, hbits, hfit⟩ := exponentFor_spec hnum hden
  have hscaled : 0 < den * Nat.pow 2 (exponentFor num den).toNat :=
    Nat.mul_pos hden (Nat.two_pow_pos _)
  have hlower : ∀ k : ℕ, (k : ℚ) * 2 ^ exponentFor num den ≤ num / den → k ≤
      roundQuotient (num * Nat.pow 2 (-exponentFor num den).toNat)
        (den * Nat.pow 2 (exponentFor num den).toNat) :=
    fun k hk => le_roundQuotient hscaled ((mul_le_scaled_iff hden _).mpr hk)
  have hupper : ∀ k : ℕ, (num / den : ℚ) ≤ k * 2 ^ exponentFor num den →
      roundQuotient (num * Nat.pow 2 (-exponentFor num den).toNat)
        (den * Nat.pow 2 (exponentFor num den).toNat) ≤ k :=
    fun k hk => roundQuotient_le hscaled ((scaled_le_mul_iff hden _).mpr hk)
  refine ⟨_, ?_, hlower, hupper⟩
  unfold ofFraction
  dsimp only
  rw [if_neg (Nat.pos_iff_ne_zero.mp hnum)]
  generalize roundQuotient _ _ = mantissa at hlower hupper ⊢
  generalize exponentFor num den = exponent at *
  have hle : mantissa ≤ Nat.pow 2 53 := by
    refine hupper _ (le_of_lt (lt_of_lt_of_eq hfit ?_))
    rw [cast_pow_two, zpow_two_add, mul_comm]
    norm_num
  by_cases hcarry : mantissa = Nat.pow 2 53
  · rw [if_pos hcarry, value?_pack ⟨by decide, by omega, by omega, .inl (le_refl _)⟩,
      hcarry, cast_pow_two, cast_pow_two, zpow_two_add]
    congr 1
    ring
  · rw [if_neg hcarry]
    refine value?_pack ⟨lt_of_le_of_ne hle hcarry, hleast, by omega, ?_⟩
    rcases hbits with hbits | hbits
    · exact .inr hbits
    · refine .inl (hlower _ (le_trans (le_of_eq ?_) hbits))
      rw [cast_pow_two, zpow_two_add, mul_comm]
      norm_num

/-! ## What is kept -/

theorem natCast_mul_two_pow {e e' : ℤ} (h : e' ≤ e) (k : ℕ) :
    ((k * 2 ^ (e - e').toNat : ℕ) : ℚ) * 2 ^ e' = k * 2 ^ e := by
  rw [Nat.cast_mul, Nat.cast_pow, Nat.cast_ofNat, ← zpow_natCast, mul_assoc, ← zpow_two_add,
    Int.toNat_of_nonneg (by omega), sub_add_cancel]

/-- A quotient with few enough bits is a number of the format and kept as it is. -/
theorem value?_ofFraction_exact {num den k : ℕ} {e : ℤ} (hnum : 0 < num) (hden : 0 < den)
    (hk : k < 2 ^ 53) (hleast : -1074 ≤ e) (he : e ≤ 0) (h : (num / den : ℚ) = k * 2 ^ e) :
    (ofFraction false num den).value? = some (num / den : ℚ) := by
  obtain ⟨-, hbits, -⟩ := exponentFor_spec hnum hden
  have hexponent : exponentFor num den ≤ e := by
    by_contra hlarge
    have hfull := hbits.resolve_left (by omega)
    have hsmall : (num / den : ℚ) < 2 ^ (e + 53) := by
      rw [h, add_comm, zpow_two_add]
      refine mul_lt_mul_of_pos_right ?_ (by positivity)
      exact_mod_cast hk
    have hmono := @zpow_two_mono (e + 53) (exponentFor num den + 52) (by omega)
    linarith
  obtain ⟨mantissa, hvalue, hlower, hupper⟩ := exists_mantissa hnum hden (by omega)
  have hsame := natCast_mul_two_pow hexponent k
  have hmantissa : mantissa = k * 2 ^ (e - exponentFor num den).toNat :=
    le_antisymm (hupper _ (by rw [hsame, h])) (hlower _ (by rw [hsame, h]))
  rw [hvalue, hmantissa, hsame, h]

/-- Rounding carries no quotient past an integer, and none to zero that is at least the least
number. -/
theorem value?_ofFraction_between {num den : ℕ} (hnum : 0 < num) (hden : 0 < den)
    (hsmall : (num / den : ℚ) ≤ 2 ^ 52) :
    ∃ r, (ofFraction false num den).value? = some r ∧ (∀ j : ℕ, (j : ℚ) ≤ num / den → (j : ℚ) ≤ r) ∧
      (∀ j : ℕ, (num / den : ℚ) ≤ j → r ≤ j) ∧ ((2 : ℚ) ^ (-1074 : ℤ) ≤ num / den → 0 < r) := by
  have hexponent := exponentFor_nonpos hnum hden hsmall
  obtain ⟨-, hbits, -⟩ := exponentFor_spec hnum hden
  obtain ⟨mantissa, hvalue, hlower, hupper⟩ := exists_mantissa hnum hden hexponent
  have hunits : ∀ j : ℕ,
      ((j * 2 ^ (0 - exponentFor num den).toNat : ℕ) : ℚ) * 2 ^ exponentFor num den = j := by
    intro j
    rw [natCast_mul_two_pow hexponent, zpow_zero, mul_one]
  refine ⟨_, hvalue, fun j hj => ?_, fun j hj => ?_, fun hleast => ?_⟩
  · have hle := hlower _ (le_of_eq_of_le (hunits j) hj)
    rw [← hunits j]
    exact mul_le_mul_of_nonneg_right (by exact_mod_cast hle) (by positivity)
  · have hle := hupper _ (le_of_le_of_eq hj (hunits j).symm)
    rw [← hunits j]
    exact mul_le_mul_of_nonneg_right (by exact_mod_cast hle) (by positivity)
  · have hone : 1 ≤ mantissa := by
      refine hlower 1 ?_
      rw [Nat.cast_one, one_mul]
      rcases hbits with hbits | hbits
      · rwa [hbits]
      · exact le_trans (zpow_two_mono (by omega)) hbits
    have hone' : (0 : ℚ) < mantissa := by exact_mod_cast hone
    positivity

/-! ## Numbers -/

/-- A positive number has a mantissa and an exponent, and is a fraction of natural numbers. -/
theorem exists_of_value? {x : Binary64} {q : ℚ} (h : x.value? = some q) (hq : 0 < q) :
    ∃ num den mantissa : ℕ, ∃ exponent : ℤ, x.ratio? = some ((num : ℤ), den) ∧ 0 < num ∧ 0 < den ∧
      q = num / den ∧ Canonical mantissa exponent ∧ q = mantissa * 2 ^ exponent := by
  cases x with
  | nan => cases h
  | infinite negative => cases h
  | finite negative mantissa exponent canonical =>
      have hden : 0 < Nat.pow 2 (-exponent).toNat := Nat.two_pow_pos _
      have hvalue : ∀ m : ℕ, ((m * Nat.pow 2 exponent.toNat : ℕ) : ℚ) /
          (Nat.pow 2 (-exponent).toNat : ℕ) = m * 2 ^ exponent := by
        intro m
        rw [Nat.cast_mul, cast_pow_two, cast_pow_two, two_zpow, mul_div_assoc']
      cases negative with
      | true =>
          exfalso
          simp only [value?, ratio?, if_true, Option.map_some, Option.some.injEq, Int.cast_neg,
            Int.cast_natCast, neg_div, hvalue] at h
          have hnonneg : (0 : ℚ) ≤ mantissa * 2 ^ exponent := by positivity
          linarith
      | false =>
          simp only [value?, ratio?, Bool.false_eq_true, if_false, Option.map_some,
            Option.some.injEq, Int.cast_natCast] at h
          have hpositive : 0 < mantissa * Nat.pow 2 exponent.toNat := by
            refine Nat.pos_of_ne_zero fun hzero => ?_
            rw [hzero, Nat.cast_zero, zero_div] at h
            exact absurd h (ne_of_lt hq)
          exact ⟨_, _, mantissa, exponent, rfl, hpositive, hden, h.symm,
            canonical, by rw [← hvalue, h]⟩

theorem ceil?_of_value? {x : Binary64} {q : ℚ} (h : x.value? = some q) : x.ceil? = some ⌈q⌉ := by
  obtain ⟨⟨num, den⟩, hratio, rfl⟩ := Option.map_eq_some_iff.mp h
  rw [ceil?, hratio, Option.map_some]
  dsimp only
  rw [Int.fdiv_eq_ediv_of_nonneg _ (Int.natCast_nonneg den), ← Rat.floor_intCast_div_natCast,
    Int.cast_neg, neg_div, Int.floor_neg, neg_neg]

/-- Comparing with an integer is comparing the values. -/
theorem compareInt?_of_value? {x : Binary64} {q : ℚ} (h : x.value? = some q) (n : ℤ) :
    (x.compareInt? n = some .lt ↔ q < n) ∧ (x.compareInt? n = some .gt ↔ (n : ℚ) < q) := by
  cases x with
  | nan => cases h
  | infinite negative => cases h
  | finite negative mantissa exponent canonical =>
      obtain ⟨⟨num, den⟩, hratio, rfl⟩ := Option.map_eq_some_iff.mp h
      have hden : (0 : ℚ) < den := by
        cases hratio
        rw [cast_pow_two]
        positivity
      rw [compareInt?, hratio, Option.map_some]
      simp only [Option.some.injEq, Int.compare_eq_lt, Int.compare_eq_gt, div_lt_iff₀ hden,
        lt_div_iff₀ hden]
      constructor
      · norm_cast
      · norm_cast

/-- What compares as positive and below one is finite. -/
theorem exists_value?_of_below_one {x : Binary64} (hpositive : x.isPositive = true)
    (hbelow : x.compareInt? 1 = some .lt) : ∃ q, x.value? = some q := by
  cases x with
  | nan => cases hbelow
  | infinite negative =>
      cases negative with
      | false => cases hbelow
      | true => cases hpositive
  | finite => exact ⟨_, rfl⟩

theorem ofRatio_natCast (num den : ℕ) : ofRatio num den = ofFraction false num den := by
  rw [ofRatio, decide_eq_false (by omega), Int.natAbs_natCast]

theorem value?_ofFraction_zero (den : ℕ) : (ofFraction false 0 den).value? = some 0 := by
  rw [ofFraction, if_pos rfl, zero, value?_pack (by decide), Nat.cast_zero, zero_mul]

/-- Taking one off is exact below `2 ^ 53`. -/
theorem value?_minusInt_one {x : Binary64} {q : ℚ} (h : x.value? = some q) (hone : 1 ≤ q)
    (hq : q < 2 ^ 53) : (x.minusInt 1).value? = some (q - 1) := by
  obtain ⟨num, den, mantissa, exponent, hratio, -, hden, hfraction, ⟨hbits, hleast, -, hfull⟩,
    hvalue⟩ :=
    exists_of_value? h (by linarith)
  have hden' : (0 : ℚ) < den := by exact_mod_cast hden
  have hle : den ≤ num := by
    rw [hfraction, one_le_div hden'] at hone
    exact_mod_cast hone
  have hminus : x.minusInt 1 = ofFraction false (num - den) den := by
    rw [minusInt, hratio]
    dsimp only
    rw [← ofRatio_natCast, Nat.cast_sub hle, one_mul]
  have hrest : ((num - den : ℕ) : ℚ) / den = q - 1 := by
    rw [Nat.cast_sub hle, sub_div, div_self hden'.ne', hfraction]
  rw [hminus, ← hrest]
  rcases Nat.eq_zero_or_pos (num - den) with hzero | hpositive
  · rw [hzero, value?_ofFraction_zero, Nat.cast_zero, zero_div]
  · -- a number below the bound has no unit above one, so that one is a multiple of its unit
    have hexponent : exponent ≤ 0 := by
      by_contra hlarge
      have hmantissa : (2 : ℚ) ^ 52 ≤ mantissa := by
        have := hfull.resolve_right (by omega)
        rw [← cast_pow_two]
        exact_mod_cast this
      have hunit := @zpow_two_mono 1 exponent (by omega)
      have hproduct : (2 : ℚ) ^ 52 * 2 ^ (1 : ℤ) ≤ mantissa * 2 ^ exponent :=
        mul_le_mul hmantissa hunit (by positivity) (by positivity)
      rw [← hvalue] at hproduct
      norm_num at hproduct hq
      linarith
    have hunits := natCast_mul_two_pow hexponent 1
    rw [one_mul, Nat.cast_one, one_mul, zpow_zero] at hunits
    have hmantissa : 2 ^ (0 - exponent).toNat ≤ mantissa := by
      have hscaled :
          ((2 ^ (0 - exponent).toNat : ℕ) : ℚ) * 2 ^ exponent ≤ mantissa * 2 ^ exponent := by
        rw [hunits, ← hvalue]
        exact hone
      exact_mod_cast le_of_mul_le_mul_right hscaled (by positivity)
    refine value?_ofFraction_exact hpositive hden (k := mantissa - 2 ^ (0 - exponent).toNat) ?_
      hleast hexponent ?_
    · exact lt_of_le_of_lt (Nat.sub_le _ _) hbits
    · rw [hrest, Nat.cast_sub hmantissa, sub_mul, hunits, hvalue]

/-- A natural multiple of a proper fraction is rounded to something positive that is on the same
side of every integer, or on it. -/
theorem value?_timesNat {x : Binary64} {q : ℚ} (h : x.value? = some q) (hpositive : 0 < q)
    (hbelow : q < 1) {k : ℕ} (hk : 0 < k) (hsmall : (k : ℚ) ≤ 2 ^ 52) :
    ∃ r, (timesNat k x).value? = some r ∧ 0 < r ∧ (∀ j : ℕ, (j : ℚ) ≤ k * q → (j : ℚ) ≤ r) ∧
      ∀ j : ℕ, k * q ≤ j → r ≤ j := by
  obtain ⟨num, den, mantissa, exponent, hratio, hnum, hden, hfraction, ⟨-, hleast, -⟩, hvalue⟩ :=
    exists_of_value? h hpositive
  have hden' : (0 : ℚ) < den := by exact_mod_cast hden
  have htimes : timesNat k x = ofFraction false (k * num) den := by
    rw [timesNat, hratio]
    dsimp only
    rw [← ofRatio_natCast, Nat.cast_mul]
  have hproduct : ((k * num : ℕ) : ℚ) / den = k * q := by
    rw [Nat.cast_mul, mul_div_assoc, hfraction]
  have hbound : ((k * num : ℕ) : ℚ) / den ≤ 2 ^ 52 := by
    rw [hproduct]
    exact le_trans (mul_le_of_le_one_right (Nat.cast_nonneg k) hbelow.le) hsmall
  obtain ⟨r, hr, hlower, hupper, hzero⟩ :=
    value?_ofFraction_between (Nat.mul_pos hk hnum) hden hbound
  rw [hproduct] at hlower hupper hzero
  refine ⟨r, by rw [htimes, hr], hzero ?_, hlower, hupper⟩
  have hmantissa : (1 : ℚ) ≤ mantissa := by
    have : mantissa ≠ 0 := by
      rintro rfl
      rw [Nat.cast_zero, zero_mul] at hvalue
      exact absurd hvalue hpositive.ne'
    exact_mod_cast Nat.one_le_iff_ne_zero.mpr this
  have hk' : (1 : ℚ) ≤ k := by exact_mod_cast hk
  calc (2 : ℚ) ^ (-1074 : ℤ) ≤ 2 ^ exponent := zpow_two_mono hleast
    _ ≤ mantissa * 2 ^ exponent := le_mul_of_one_le_left (by positivity) hmantissa
    _ = q := hvalue.symm
    _ ≤ k * q := le_mul_of_one_le_left hpositive.le hk'

end SceneScript.Binary64
