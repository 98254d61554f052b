import Mathlib.Data.List.Forall2
import Mathlib.Data.Nat.Digits.Defs
import SceneScript.Proofs.Fallback

/-!
# Which texts start with an integer

A text starts with an integer if it can be cut in four: blanks, a sign or none, digits, and a
rest that does not go on with a digit.  `LeadingCut` is such a cut, said without the scanner.  A
digit of any script is so many places behind the zero of its script, and of the digits the last
counts once and each other ten times as much as the one behind it.

The scanner finds the digits of a cut exactly if there is one.  No text has two cuts: blanks,
signs and digits have no character in common, so that each part is as long as its class lasts,
and where it ends is seen on the text alone (`IsRun`).  Of the digits there may be as many as
the limit says, zeros at the start counted too; then the scanner gives the integer of the cut,
and otherwise it fails.  So an integer that can be written in decimal is read back, whatever
blanks stand before it and whatever stands behind, digits apart.
-/

namespace SceneScript

namespace Text

/-! ## Digits of every script -/

/-- The character is the digit for `v` of some script. -/
def IsDigitFor (c : Char) (v : Nat) : Prop := ∃ first ∈ digitZeros, v ≤ 9 ∧ c.toNat = first + v

theorem digitZeros_apart :
    ∀ a ∈ digitZeros, ∀ b ∈ digitZeros, a = b ∨ a + 9 < b ∨ b + 9 < a := by decide +kernel

theorem blankRanges_apart :
    ∀ range ∈ blankRanges, ∀ first ∈ digitZeros,
      range.2 < first ∨ first + 9 < range.1 := by decide +kernel

theorem IsDigitFor.unique {c : Char} {v w : Nat} (hv : IsDigitFor c v) (hw : IsDigitFor c w) :
    v = w := by
  obtain ⟨a, ha, hv, hca⟩ := hv
  obtain ⟨b, hb, hw, hcb⟩ := hw
  have hapart := digitZeros_apart a ha b hb
  omega

theorem digitValue?_eq_some_iff {c : Char} {v : Nat} : digitValue? c = some v ↔ IsDigitFor c v := by
  have hsound : ∀ w, digitValue? c = some w → IsDigitFor c w := by
    intro w h
    obtain ⟨first, hfirst, hfound⟩ := List.exists_of_findSome?_eq_some h
    obtain ⟨hrange, hw⟩ := Option.ite_none_right_eq_some.mp hfound
    have hdistance : c.toNat - first = w := Option.some.inj hw
    exact ⟨first, hfirst, by omega, by omega⟩
  refine ⟨hsound v, fun h => ?_⟩
  -- The search may stop before the script at hand, but then at the same value: no two scripts
  -- share a digit.
  have hfound : (digitValue? c).isSome := by
    obtain ⟨first, hfirst, hv, hc⟩ := h
    refine List.findSome?_isSome_iff.mpr ⟨first, hfirst, ?_⟩
    rw [if_pos ⟨by omega, by omega⟩]
    rfl
  obtain ⟨w, hw⟩ := Option.isSome_iff_exists.mp hfound
  rw [hw, (hsound w hw).unique h]

theorem isDecimalDigit_iff {c : Char} : isDecimalDigit c = true ↔ ∃ v, IsDigitFor c v := by
  simp only [isDecimalDigit, Option.isSome_iff_exists, digitValue?_eq_some_iff]

theorem isDecimalDigit_eq_false_iff {c : Char} :
    isDecimalDigit c = false ↔ ∀ v, ¬IsDigitFor c v := by
  rw [← Bool.not_eq_true, isDecimalDigit_iff, not_exists]

theorem isBlank_of_isDecimalDigit {c : Char} (h : isDecimalDigit c = true) : isBlank c = false := by
  obtain ⟨v, first, hfirst, hv, hc⟩ := isDecimalDigit_iff.mp h
  refine List.any_eq_false.mpr fun range hrange => ?_
  have hapart := blankRanges_apart range hrange first hfirst
  simp only [Bool.and_eq_true, decide_eq_true_eq, not_and]
  omega

/-- The digits that numbers are written with here stand for what they should. -/
theorem digitValue?_of_isDigit {c : Char} (h : c.isDigit = true) :
    digitValue? c = some (c.toNat - '0'.toNat) := by
  have hzero : '0'.toNat = 0x30 := rfl
  simp only [Char.isDigit, Bool.and_eq_true, decide_eq_true_eq] at h
  have hlow : 48 ≤ c.toNat := h.1
  have hhigh : c.toNat ≤ 57 := h.2
  exact digitValue?_eq_some_iff.mpr ⟨0x30, by decide, by omega, by omega⟩

/-! ## Runs of characters of a class -/

/-- Before `rest` stands a run of characters of a class, and the class ends there. -/
structure IsRun (p : Char → Bool) (run rest : List Char) : Prop where
  all : ∀ c ∈ run, p c = true
  ends : ∀ c ∈ rest.head?, p c = false

namespace IsRun

variable {p : Char → Bool} {run rest : List Char}

theorem takeWhile_append (h : IsRun p run rest) : (run ++ rest).takeWhile p = run := by
  rw [List.takeWhile_append_of_pos h.all]
  cases rest with
  | nil => exact List.append_nil run
  | cons c rest => rw [List.takeWhile_cons_of_neg (by simp [h.ends c rfl]), List.append_nil]

theorem dropWhile_append (h : IsRun p run rest) : (run ++ rest).dropWhile p = rest := by
  rw [List.dropWhile_append_of_pos h.all]
  cases rest with
  | nil => rfl
  | cons c rest => rw [List.dropWhile_cons_of_neg (by simp [h.ends c rfl])]

/-- A text has one run of a class at its start. -/
theorem unique {run' rest' : List Char} (h : IsRun p run rest) (h' : IsRun p run' rest')
    (htext : run ++ rest = run' ++ rest') : run = run' ∧ rest = rest' := by
  constructor
  · rw [← h.takeWhile_append, htext, h'.takeWhile_append]
  · rw [← h.dropWhile_append, htext, h'.dropWhile_append]

end IsRun

theorem isRun_takeWhile (p : Char → Bool) (chars : List Char) :
    IsRun p (chars.takeWhile p) (chars.dropWhile p) where
  all := List.all_eq_true.mp List.all_takeWhile
  ends := by
    intro c hc
    have hhead := List.head?_dropWhile_not p chars
    rw [Option.mem_def.mp hc] at hhead
    exact hhead

/-! ## Numerals -/

theorem forall₂_isDigitFor_iff {digits : List Char} {values : List Nat} :
    List.Forall₂ IsDigitFor digits values ↔
      (∀ c ∈ digits, isDecimalDigit c = true) ∧
      values = digits.map fun c => (digitValue? c).getD 0 := by
  induction digits generalizing values with
  | nil => simp
  | cons c rest ih =>
      constructor
      · intro h
        cases h with
        | cons hc hrest =>
            obtain ⟨hdigits, hvalues⟩ := ih.mp hrest
            refine ⟨List.forall_mem_cons.mpr ⟨isDecimalDigit_iff.mpr ⟨_, hc⟩, hdigits⟩, ?_⟩
            rw [List.map_cons, digitValue?_eq_some_iff.mpr hc, hvalues]
            rfl
      · rintro ⟨hdigits, rfl⟩
        obtain ⟨hc, hrest⟩ := List.forall_mem_cons.mp hdigits
        obtain ⟨v, hv⟩ := isDecimalDigit_iff.mp hc
        rw [List.map_cons, digitValue?_eq_some_iff.mpr hv]
        exact .cons hv (ih.mpr ⟨hrest, rfl⟩)

/-- A run of digits, one at least, with what each of them stands for. -/
@[ext]
structure Numeral where
  digits : List Char
  values : List Nat
  digits_ne_nil : digits ≠ []
  valued : List.Forall₂ IsDigitFor digits values

namespace Numeral

/-- The number in decimal: the last digit counts once, each other ten times as much as the one
behind it. -/
def value (u : Numeral) : Nat := Nat.ofDigits 10 u.values.reverse

/-- A run of digits as a numeral. -/
def ofDigits (digits : List Char) (hne : digits ≠ []) (h : ∀ c ∈ digits, isDecimalDigit c = true) :
    Numeral where
  digits := digits
  values := digits.map fun c => (digitValue? c).getD 0
  digits_ne_nil := hne
  valued := forall₂_isDigitFor_iff.mpr ⟨h, rfl⟩

theorem isDecimalDigit_of_mem (u : Numeral) : ∀ c ∈ u.digits, isDecimalDigit c = true :=
  (forall₂_isDigitFor_iff.mp u.valued).1

theorem values_eq (u : Numeral) : u.values = u.digits.map fun c => (digitValue? c).getD 0 :=
  (forall₂_isDigitFor_iff.mp u.valued).2

theorem eq_of_digits {u w : Numeral} (h : u.digits = w.digits) : u = w := by
  have hvalues : u.values = w.values := by rw [u.values_eq, w.values_eq, h]
  exact Numeral.ext h hvalues

/-- Reading the digits from the left gives the sum of what they count. -/
theorem digitsValue_digits (u : Numeral) : digitsValue u.digits = u.value := by
  rw [value, Nat.ofDigits_eq_foldr, List.foldr_reverse, u.values_eq, List.foldl_map, digitsValue]
  congr 1
  funext n c
  exact Nat.add_comm _ _

/-- What starts with a numeral starts with a digit. -/
theorem isDecimalDigit_of_head (u : Numeral) (rest : List Char) :
    ∀ c ∈ (u.digits ++ rest).head?, isDecimalDigit c = true := by
  intro c hc
  rw [List.head?_append_of_ne_nil _ u.digits_ne_nil] at hc
  exact u.isDecimalDigit_of_mem c (List.mem_of_mem_head? hc)

end Numeral

theorem leadingDigits?_append {u : Numeral} {rest : List Char}
    (h : IsRun isDecimalDigit u.digits rest) :
    leadingDigits? (u.digits ++ rest) = some u.digits := by
  obtain ⟨c, more, hdigits⟩ := List.exists_cons_of_ne_nil u.digits_ne_nil
  rw [leadingDigits?, h.takeWhile_append, hdigits]

theorem exists_numeral {chars digits : List Char} (h : leadingDigits? chars = some digits) :
    ∃ (u : Numeral) (rest : List Char), chars = u.digits ++ rest ∧
      IsRun isDecimalDigit u.digits rest ∧ u.digits = digits := by
  have hrun := isRun_takeWhile isDecimalDigit chars
  have hne : chars.takeWhile isDecimalDigit ≠ [] := by
    intro hnil
    rw [leadingDigits?, hnil] at h
    cases h
  have hchars := (List.takeWhile_append_dropWhile (p := isDecimalDigit) (l := chars)).symm
  refine ⟨.ofDigits _ hne hrun.all, _, hchars, hrun, Option.some.inj ?_⟩
  rw [← leadingDigits?_append (u := .ofDigits _ hne hrun.all) hrun, ← h]
  exact congrArg leadingDigits? hchars.symm

/-! ## Signs -/

/-- The sign before a numeral. -/
inductive Sign
  | absent
  | plus
  | minus

namespace Sign

/-- A sign as it is written. -/
def chars : Sign → List Char
  | absent => []
  | plus => ['+']
  | minus => ['-']

/-- Whether a sign makes what it stands before negative. -/
def isMinus : Sign → Bool
  | absent => false
  | plus => false
  | minus => true

/-- The integer with a sign and an absolute value. -/
def apply : Sign → Nat → Int
  | absent, n => n
  | plus, n => n
  | minus, n => -n

theorem value_signedDigits (sign : Sign) (digits : List Char) :
    SignedDigits.value ⟨sign.isMinus, digits⟩ = sign.apply (digitsValue digits) := by
  cases sign
  all_goals rfl

end Sign

/-- Whether a character is a sign. -/
def isSign (c : Char) : Bool := c == '+' || c == '-'

theorem isSign_of_isDecimalDigit {c : Char} (h : isDecimalDigit c = true) : isSign c = false := by
  have hplus : c ≠ '+' := by
    rintro rfl
    exact absurd h (by decide)
  have hminus : c ≠ '-' := by
    rintro rfl
    exact absurd h (by decide)
  simp [isSign, hplus, hminus]

theorem isBlank_of_isSign {c : Char} (h : isSign c = true) : isBlank c = false := by
  simp only [isSign, Bool.or_eq_true, beq_iff_eq] at h
  rcases h with rfl | rfl
  all_goals decide

theorem Sign.isSign_of_mem (sign : Sign) : ∀ c ∈ sign.chars, isSign c = true := by
  refine List.all_eq_true.mp ?_
  cases sign
  all_goals rfl

theorem Sign.eq_of_chars {a b : Sign} (h : a.chars = b.chars) : a = b := by
  cases a
  all_goals cases b
  all_goals simp_all [chars]

theorem signedDigits?_append (sign : Sign) {chars : List Char}
    (h : ∀ c ∈ chars.head?, isSign c = false) :
    signedDigits? (sign.chars ++ chars) =
      (leadingDigits? chars).map fun digits => ⟨sign.isMinus, digits⟩ := by
  cases sign with
  | absent =>
      have hminus : ∀ rest, chars = '-' :: rest → False := by
        rintro rest rfl
        exact absurd (h '-' rfl) (by decide)
      have hplus : ∀ rest, chars = '+' :: rest → False := by
        rintro rest rfl
        exact absurd (h '+' rfl) (by decide)
      exact signedDigits?.eq_3 chars hminus hplus
  | plus => rfl
  | minus => rfl

/-- Whatever the scanner makes of a text, it does so behind a sign. -/
theorem exists_sign (chars : List Char) : ∃ (sign : Sign) (more : List Char),
    chars = sign.chars ++ more ∧
      signedDigits? chars = (leadingDigits? more).map fun digits => ⟨sign.isMinus, digits⟩ := by
  by_cases hminus : ∃ rest, chars = '-' :: rest
  · obtain ⟨rest, rfl⟩ := hminus
    exact ⟨.minus, rest, rfl, rfl⟩
  · by_cases hplus : ∃ rest, chars = '+' :: rest
    · obtain ⟨rest, rfl⟩ := hplus
      exact ⟨.plus, rest, rfl, rfl⟩
    · exact ⟨.absent, chars, rfl, signedDigits?.eq_3 chars (not_exists.mp hminus)
        (not_exists.mp hplus)⟩

/-! ## Cuts -/

/-- A text in four parts: blanks, a sign, a numeral and a rest that does not go on with a digit. -/
@[ext]
structure LeadingCut where
  blanks : List Char
  sign : Sign
  numeral : Numeral
  rest : List Char
  blanks_blank : ∀ c ∈ blanks, isBlank c = true
  rest_ends : ∀ c ∈ rest.head?, ∀ v, ¬IsDigitFor c v

namespace LeadingCut

/-- The text that is cut. -/
def text (p : LeadingCut) : List Char := p.blanks ++ (p.sign.chars ++ (p.numeral.digits ++ p.rest))

/-- The integer that the text starts with. -/
def value (p : LeadingCut) : Int := p.sign.apply p.numeral.value

/-- How many digits it is written with. -/
def digitCount (p : LeadingCut) : Nat := p.numeral.digits.length

/-- The digits with their sign, as the scanner has them. -/
def signedDigits (p : LeadingCut) : SignedDigits := ⟨p.sign.isMinus, p.numeral.digits⟩

theorem value_signedDigits (p : LeadingCut) : p.signedDigits.value = p.value := by
  rw [signedDigits, Sign.value_signedDigits, Numeral.digitsValue_digits]
  rfl

theorem digits_isRun (p : LeadingCut) : IsRun isDecimalDigit p.numeral.digits p.rest where
  all := p.numeral.isDecimalDigit_of_mem
  ends := fun c hc => isDecimalDigit_eq_false_iff.mpr (p.rest_ends c hc)

theorem sign_isRun (p : LeadingCut) : IsRun isSign p.sign.chars (p.numeral.digits ++ p.rest) where
  all := p.sign.isSign_of_mem
  ends := fun c hc => isSign_of_isDecimalDigit (p.numeral.isDecimalDigit_of_head p.rest c hc)

theorem blanks_isRun (p : LeadingCut) :
    IsRun isBlank p.blanks (p.sign.chars ++ (p.numeral.digits ++ p.rest)) where
  all := p.blanks_blank
  ends := by
    intro c hc
    rw [Option.mem_def, List.head?_append, Option.or_eq_some_iff] at hc
    rcases hc with hsign | ⟨-, hdigit⟩
    · exact isBlank_of_isSign (p.sign.isSign_of_mem c (List.mem_of_mem_head? hsign))
    · exact isBlank_of_isDecimalDigit (p.numeral.isDecimalDigit_of_head p.rest c hdigit)

/-- A text is cut in one way only. -/
theorem eq_of_text {p q : LeadingCut} (h : p.text = q.text) : p = q := by
  -- From left to right: what is left behind one part is the same in both, and starts with the next.
  obtain ⟨hblanks, hsigned⟩ := p.blanks_isRun.unique q.blanks_isRun h
  obtain ⟨hsign, hnumeral⟩ := p.sign_isRun.unique q.sign_isRun hsigned
  obtain ⟨hdigits, hrest⟩ := p.digits_isRun.unique q.digits_isRun hnumeral
  exact LeadingCut.ext hblanks (Sign.eq_of_chars hsign) (Numeral.eq_of_digits hdigits) hrest

/-- The scanner finds the digits of a cut. -/
theorem leadingNumeral?_text (p : LeadingCut) : leadingNumeral? p.text = some p.signedDigits := by
  rw [leadingNumeral?, text, p.blanks_isRun.dropWhile_append,
    signedDigits?_append p.sign p.sign_isRun.ends, leadingDigits?_append p.digits_isRun]
  rfl

theorem leadingInteger_text {p : LeadingCut} (h : p.digitCount ≤ digitLimit) :
    leadingInteger p.text = .ok (some p.value) := by
  rw [leadingInteger_some p.leadingNumeral?_text h, p.value_signedDigits]

theorem leadingInteger_text_tooLong {p : LeadingCut} (h : digitLimit < p.digitCount) :
    leadingInteger p.text = .error (.toRead p.digitCount) :=
  leadingInteger_tooLong p.leadingNumeral?_text h

end LeadingCut

/-- Where the scanner finds digits, there is a cut. -/
theorem exists_cut {chars : List Char} {numeral : SignedDigits}
    (h : leadingNumeral? chars = some numeral) : ∃ p : LeadingCut, p.text = chars := by
  have hblanks := isRun_takeWhile isBlank chars
  obtain ⟨sign, more, hsigned, hread⟩ := exists_sign (chars.dropWhile isBlank)
  rw [leadingNumeral?, hread] at h
  obtain ⟨digits, hfound, rfl⟩ := Option.map_eq_some_iff.mp h
  obtain ⟨found, rest, rfl, hdigits, rfl⟩ := exists_numeral hfound
  refine ⟨⟨chars.takeWhile isBlank, sign, found, rest, hblanks.all,
    fun c hc => isDecimalDigit_eq_false_iff.mp (hdigits.ends c hc)⟩, ?_⟩
  rw [LeadingCut.text, ← hsigned, List.takeWhile_append_dropWhile]

/-- A text without a cut is read, and has no integer. -/
theorem leadingInteger_of_no_cut {chars : List Char} (h : ¬∃ p : LeadingCut, p.text = chars) :
    leadingInteger chars = .ok none := by
  cases hnumeral : leadingNumeral? chars with
  | none => exact leadingInteger_none hnumeral
  | some numeral => exact absurd (exists_cut hnumeral) h

/-- How the scanner ends on a text, by its cut: there is none; there is one, with digits that can
be read; there is one, with too many. -/
inductive Scanned (chars : List Char) : Except TooManyDigits (Option Int) → Prop
  | none : (¬∃ p : LeadingCut, p.text = chars) → Scanned chars (.ok none)
  | some {p : LeadingCut} : p.text = chars → p.digitCount ≤ digitLimit →
      Scanned chars (.ok (some p.value))
  | tooLong {p : LeadingCut} : p.text = chars → digitLimit < p.digitCount →
      Scanned chars (.error (.toRead p.digitCount))

theorem scanned_leadingInteger (chars : List Char) : Scanned chars (leadingInteger chars) := by
  by_cases hcut : ∃ p : LeadingCut, p.text = chars
  · obtain ⟨p, rfl⟩ := hcut
    rcases Nat.lt_or_ge digitLimit p.digitCount with hlong | hshort
    · rw [LeadingCut.leadingInteger_text_tooLong hlong]
      exact .tooLong rfl hlong
    · rw [LeadingCut.leadingInteger_text hshort]
      exact .some rfl hshort
  · rw [leadingInteger_of_no_cut hcut]
    exact .none hcut

theorem leadingInteger_eq_some_iff {chars : List Char} {n : Int} :
    leadingInteger chars = .ok (some n) ↔
      ∃ p : LeadingCut, p.text = chars ∧ p.digitCount ≤ digitLimit ∧ p.value = n := by
  constructor
  · intro h
    have hscanned := scanned_leadingInteger chars
    rw [h] at hscanned
    cases hscanned with
    | some htext hshort => exact ⟨_, htext, hshort, rfl⟩
  · rintro ⟨p, rfl, hshort, rfl⟩
    exact LeadingCut.leadingInteger_text hshort

theorem leadingInteger_eq_none_iff {chars : List Char} :
    leadingInteger chars = .ok none ↔ ¬∃ p : LeadingCut, p.text = chars := by
  refine ⟨fun h => ?_, leadingInteger_of_no_cut⟩
  have hscanned := scanned_leadingInteger chars
  rw [h] at hscanned
  cases hscanned with
  | none hcut => exact hcut

theorem leadingInteger_eq_error_iff {chars : List Char} {e : TooManyDigits} :
    leadingInteger chars = .error e ↔
      ∃ p : LeadingCut, p.text = chars ∧ digitLimit < p.digitCount ∧ e = .toRead p.digitCount := by
  constructor
  · intro h
    have hscanned := scanned_leadingInteger chars
    rw [h] at hscanned
    cases hscanned with
    | tooLong htext hlong => exact ⟨_, htext, hlong, rfl⟩
  · rintro ⟨p, rfl, hlong, rfl⟩
    exact LeadingCut.leadingInteger_text_tooLong hlong

/-! ## Integers in decimal -/

namespace Numeral

/-- A natural number in decimal. -/
def decimal (n : Nat) : Numeral :=
  .ofDigits (Nat.toDigits 10 n) Nat.toDigits_ne_nil fun c hc => by
    rw [isDecimalDigit, digitValue?_of_isDigit (Nat.isDigit_of_mem_toDigits (by decide)
      (by decide) hc)]
    rfl

theorem value_decimal (n : Nat) : (decimal n).value = n := by
  have hdigits : digitsValue (Nat.toDigits 10 n) = Nat.ofDigitChars 10 (Nat.toDigits 10 n) 0 := by
    refine List.foldl_ext _ _ _ fun m c hc => ?_
    rw [digitValue?_of_isDigit (Nat.isDigit_of_mem_toDigits (by decide) (by decide) hc)]
    rfl
  rw [← digitsValue_digits]
  exact hdigits.trans (Nat.ofDigitChars_toDigits (by decide) (by decide))

end Numeral

theorem exists_sign_toString (n : Int) : ∃ sign : Sign,
    (toString n).toList = sign.chars ++ (Numeral.decimal n.natAbs).digits ∧
    sign.apply n.natAbs = n := by
  rw [Int.toString_eq_repr]
  cases n with
  | ofNat m => exact ⟨.absent, Nat.toList_repr, rfl⟩
  | negSucc m =>
      refine ⟨.minus, ?_, rfl⟩
      rw [Int.repr, String.toList_append, Nat.toList_repr]
      rfl

/-- An integer in decimal can be cut off a text, with blanks before it and behind it anything but a
digit. -/
theorem exists_cut_toString (n : Int) {blanks rest : List Char}
    (hblanks : ∀ c ∈ blanks, isBlank c = true) (hrest : ∀ c ∈ rest.head?, ∀ v, ¬IsDigitFor c v) :
    ∃ p : LeadingCut, p.text = blanks ++ (toString n).toList ++ rest ∧ p.value = n ∧
      p.digitCount = (Nat.toDigits 10 n.natAbs).length := by
  obtain ⟨sign, htext, hn⟩ := exists_sign_toString n
  refine ⟨⟨blanks, sign, .decimal n.natAbs, rest, hblanks, hrest⟩, ?_, ?_, rfl⟩
  · rw [LeadingCut.text, htext, List.append_assoc, List.append_assoc]
  · rw [LeadingCut.value, Numeral.value_decimal, hn]

end Text

/-! ## Encounters -/

open Text

namespace Operand

/-! An encounter that is a text is read as the text is. -/

theorem leadingInteger_str_ok {s : String} {number : Option Int} :
    leadingInteger (.str s) = .ok number ↔ Text.leadingInteger s.toList = .ok number := by
  rw [leadingInteger]
  cases Text.leadingInteger s.toList with
  | ok found => simp [Fault.limited]
  | error e => simp [Fault.limited]

theorem leadingInteger_str_error {s : String} {fault : Fault} :
    leadingInteger (.str s) = .error fault ↔
      ∃ e, Text.leadingInteger s.toList = .error e ∧ fault = .malformed (.tooManyDigits e) := by
  rw [leadingInteger]
  cases Text.leadingInteger s.toList with
  | ok found => simp [Fault.limited]
  | error e => simp [Fault.limited, eq_comm]

end Operand

namespace Scope

variable {scope : Scope} {args : Fields}

theorem emit_battle_of_some {n : Int}
    (h : Operand.leadingInteger (args.get "encounter") = .ok (some n)) (hn : 0 ≤ n) :
    scope.emit .startBattle args = .ok (.single .startBattle [.int n]) := by
  refine emit_ok.mpr ⟨_, emitStartBattle_ok.mpr ⟨_, h, rfl⟩, ?_⟩
  rw [battle, if_neg (Int.not_lt.mpr hn)]
  exact ⟨rfl, rfl⟩

/-- A battle that cannot be started falls back, and says so if the encounter is a text. -/
theorem emit_battle_of_none {s : String} {number : Option Int} (hs : args.get "encounter" = .str s)
    (h : Operand.leadingInteger (args.get "encounter") = .ok number)
    (hnumber : ∀ n, number = some n → n < 0) :
    ∃ e, scope.emit .startBattle args = .ok e ∧ e.drafts = [] ∧
      e.warnings.map Warning.cause = [.invalidEncounter (.str s)] := by
  have hdropped : battle (args.get "encounter") number = .dropped (.invalidEncounter (.str s)) := by
    rw [hs]
    cases number with
    | none => rfl
    | some n => exact if_pos (hnumber n rfl)
  have htold : ∃ e, (Recipe.dropped (.invalidEncounter (.str s))).emission = .ok e :=
    Recipe.exists_emission.mpr (List.forall_mem_singleton.mpr (Value.short_str s))
  obtain ⟨e, he⟩ := htold
  obtain ⟨hdrafts, hwarnings⟩ := Recipe.emission_ok.mp he
  exact ⟨e, result_bind_ok.mpr ⟨_, emitStartBattle_ok.mpr ⟨_, h, hdropped.symm⟩, he⟩,
    hdrafts, hwarnings⟩

theorem emit_battle_of_error {fault : Fault}
    (h : Operand.leadingInteger (args.get "encounter") = .error fault) :
    scope.emit .startBattle args = .error fault :=
  emit_error.mpr (.inl (result_bind_error.mpr (.inl h)))

end Scope

/-- **A text is an encounter by its leading integer, and that is a matter of grammar.**  The
integer of a text is `n` exactly if the text can be cut into blanks, a sign or none, a numeral
of not too many digits and a rest that does not go on with a digit, with `n` for the number in
decimal under its sign.  It has none exactly if there is no such cut, and it cannot be read
exactly if there is one, but with too many digits.  There are never two cuts of a text.

An integer in decimal is read back, with blanks before it and behind it nothing or what does not
start with a digit, if it has not too many digits.  A battle is started for the integer of its
text, dropped with a warning if there is none or it is negative, and fails if it cannot be
read. -/
theorem encounter_text_follows_grammar :
    (∀ (s : String) (n : Int), Operand.leadingInteger (.str s) = .ok (some n) ↔
      ∃ p : LeadingCut, p.text = s.toList ∧ p.digitCount ≤ digitLimit ∧ p.value = n) ∧
    (∀ s : String, Operand.leadingInteger (.str s) = .ok none ↔
      ¬∃ p : LeadingCut, p.text = s.toList) ∧
    (∀ (s : String) (fault : Fault), Operand.leadingInteger (.str s) = .error fault ↔
      ∃ p : LeadingCut, p.text = s.toList ∧ digitLimit < p.digitCount ∧
        fault = .malformed (.tooManyDigits (.toRead p.digitCount))) ∧
    (∀ p q : LeadingCut, p.text = q.text → p = q) ∧
    (∀ (n : Int) (blanks rest : String), (∀ c ∈ blanks.toList, isBlank c = true) →
      (∀ c ∈ rest.toList.head?, ∀ v, ¬IsDigitFor c v) →
      (Operand.leadingInteger (.str (blanks ++ toString n ++ rest)) = .ok (some n) ↔
        n.natAbs < Nat.pow 10 digitLimit)) ∧
    ∀ (scope : Scope) (args : Fields) (s : String), args.get "encounter" = .str s →
      (∀ p : LeadingCut, p.text = s.toList → p.digitCount ≤ digitLimit → 0 ≤ p.value →
        scope.emit .startBattle args = .ok (.single .startBattle [.int p.value])) ∧
      ((∀ p : LeadingCut, p.text = s.toList → p.digitCount ≤ digitLimit ∧ p.value < 0) →
        ∃ e, scope.emit .startBattle args = .ok e ∧ e.drafts = [] ∧
          e.warnings.map Warning.cause = [.invalidEncounter (.str s)]) ∧
      ∀ p : LeadingCut, p.text = s.toList → digitLimit < p.digitCount →
        scope.emit .startBattle args =
          .error (.malformed (.tooManyDigits (.toRead p.digitCount))) := by
  refine ⟨?_, ?_, ?_, fun p q => LeadingCut.eq_of_text, ?_, ?_⟩
  · intro s n
    exact Operand.leadingInteger_str_ok.trans leadingInteger_eq_some_iff
  · intro s
    exact Operand.leadingInteger_str_ok.trans leadingInteger_eq_none_iff
  · intro s fault
    rw [Operand.leadingInteger_str_error]
    constructor
    · rintro ⟨e, hread, rfl⟩
      obtain ⟨p, hp, hlong, rfl⟩ := leadingInteger_eq_error_iff.mp hread
      exact ⟨p, hp, hlong, rfl⟩
    · rintro ⟨p, hp, hlong, rfl⟩
      exact ⟨_, leadingInteger_eq_error_iff.mpr ⟨p, hp, hlong, rfl⟩, rfl⟩
  · intro n blanks rest hblanks hrest
    obtain ⟨p, htext, hvalue, hcount⟩ := exists_cut_toString n hblanks hrest
    rw [Operand.leadingInteger_str_ok, String.toList_append, String.toList_append, ← htext,
      ← fewDigits_iff, FewDigits, ← hcount, leadingInteger_eq_some_iff]
    constructor
    · rintro ⟨q, hq, hshort, -⟩
      rw [← LeadingCut.eq_of_text hq]
      exact hshort
    · exact fun hshort => ⟨p, rfl, hshort, hvalue⟩
  · intro scope args s hs
    have hread : ∀ {number}, Text.leadingInteger s.toList = .ok number →
        Operand.leadingInteger (args.get "encounter") = .ok number := by
      intro number h
      rw [hs]
      exact Operand.leadingInteger_str_ok.mpr h
    refine ⟨?_, ?_, ?_⟩
    · intro p hp hshort hvalue
      have hvalueRead := hread (leadingInteger_eq_some_iff.mpr ⟨p, hp, hshort, rfl⟩)
      exact Scope.emit_battle_of_some hvalueRead hvalue
    · intro h
      by_cases hcut : ∃ p : LeadingCut, p.text = s.toList
      · obtain ⟨p, hp⟩ := hcut
        obtain ⟨hshort, hnegative⟩ := h p hp
        refine Scope.emit_battle_of_none hs
          (hread (leadingInteger_eq_some_iff.mpr ⟨p, hp, hshort, rfl⟩)) fun n hn => ?_
        cases hn
        exact hnegative
      · refine Scope.emit_battle_of_none hs (hread (leadingInteger_of_no_cut hcut)) fun n hn => ?_
        cases hn
    · intro p hp hlong
      refine Scope.emit_battle_of_error ?_
      rw [hs, Operand.leadingInteger_str_error]
      exact ⟨_, leadingInteger_eq_error_iff.mpr ⟨p, hp, hlong, rfl⟩, rfl⟩

/-- An ideographic blank, a plus, the digits of 37 from two scripts and a letter. -/
def mixedCut : LeadingCut where
  blanks := ['\u3000']
  sign := .plus
  numeral := .ofDigits ['\u0663', '7'] (by decide) (List.all_eq_true.mp (by decide))
  rest := ['b']
  blanks_blank := List.all_eq_true.mp (by decide)
  rest_ends := by
    rintro c ⟨⟩
    exact isDecimalDigit_eq_false_iff.mp (by decide)

/-- The text of `mixedCut` is read as 37, is cut in no other way and starts battle 37; minus 12
behind a tab and before a word is read back, and then the battle is dropped; a sign apart from
its digit is none. -/
theorem encounter_text_follows_grammar_mixed :
    (mixedCut.text = "\u3000+\u06637b".toList ∧
      Operand.leadingInteger (.str "\u3000+\u06637b") = .ok (some 37) ∧
      (∀ q : LeadingCut, q.text = mixedCut.text → q = mixedCut) ∧
      ∀ scope : Scope, scope.emit .startBattle [(.str "encounter", .str "\u3000+\u06637b")] =
        .ok (.single .startBattle [.int 37])) ∧
    (Operand.leadingInteger (.str ("\t" ++ toString (-12 : Int) ++ " men")) = .ok (some (-12)) ∧
      ∀ scope : Scope, ∃ e, scope.emit .startBattle [(.str "encounter", .str "\t-12 men")] = .ok e ∧
        e.warnings.map Warning.cause = [.invalidEncounter (.str "\t-12 men")]) ∧
    ¬∃ p : LeadingCut, p.text = "- 1".toList := by
  obtain ⟨hsome, hnone, -, hunique, hdecimal, hbattle⟩ := encounter_text_follows_grammar
  have hmixed : mixedCut.digitCount ≤ digitLimit := by decide
  refine ⟨⟨by decide, (hsome _ _).mpr ⟨mixedCut, by decide, hmixed, by decide⟩,
      fun q => hunique q mixedCut, fun scope => ?_⟩,
    ⟨(hdecimal (-12) "\t" " men" (List.all_eq_true.mp (by decide)) ?_).mpr ?_, fun scope => ?_⟩,
    (hnone "- 1").mp rfl⟩
  · exact (hbattle scope _ _ rfl).1 mixedCut (by decide) hmixed (by decide)
  · rintro c ⟨⟩
    exact isDecimalDigit_eq_false_iff.mp (by decide)
  · exact fewDigits_iff.mp (by decide : FewDigits (-12))
  · have hread : Operand.leadingInteger (.str "\t-12 men") = .ok (some (-12)) := rfl
    obtain ⟨q, hq, hshort, hvalue⟩ := (hsome "\t-12 men" (-12)).mp hread
    have hdropped := (hbattle scope [(.str "encounter", .str "\t-12 men")] _ rfl).2.1 fun p hp => by
      obtain rfl := hunique p q (hp.trans hq.symm)
      exact ⟨hshort, by omega⟩
    obtain ⟨e, hemit, -, hwarnings⟩ := hdropped
    exact ⟨e, hemit, hwarnings⟩

/-! ## Zeros at the start -/

/-- A five behind so many zeros. -/
def zerosCut (zeros : Nat) : LeadingCut where
  blanks := []
  sign := .absent
  numeral := .ofDigits (List.replicate zeros '0' ++ ['5']) (by simp) fun c hc => by
    rcases List.mem_append.mp hc with hzero | hfive
    · rw [(List.mem_replicate.mp hzero).2]
      decide
    · rw [List.mem_singleton.mp hfive]
      decide
  rest := []
  blanks_blank := fun _ hc => absurd hc List.not_mem_nil
  rest_ends := fun _ hc => by cases hc

theorem value_zerosCut (zeros : Nat) : (zerosCut zeros).value = 5 := by
  have hzeros :
      (List.replicate zeros '0').foldl (fun n c => 10 * n + (digitValue? c).getD 0) 0 = 0 := by
    induction zeros with
    | zero => rfl
    | succ fewer ih => exact ih
  rw [← LeadingCut.value_signedDigits]
  show ((digitsValue (List.replicate zeros '0' ++ ['5']) : Nat) : Int) = 5
  rw [digitsValue, List.foldl_append, hzeros]
  rfl

/-- The digits stand for five, but there are too many of them to be read. -/
theorem encounter_text_with_zeros :
    ∃ s : String, (zerosCut 4300).text = s.toList ∧ (zerosCut 4300).value = 5 ∧
      Operand.leadingInteger (.str s) = .error (.malformed (.tooManyDigits (.toRead 4301))) := by
  have hcount : (zerosCut 4300).digitCount = 4301 := by
    show (List.replicate 4300 '0' ++ ['5']).length = 4301
    rw [List.length_append, List.length_replicate]
    rfl
  refine ⟨String.ofList (zerosCut 4300).text, String.toList_ofList.symm, value_zerosCut 4300, ?_⟩
  refine Operand.leadingInteger_str_error.mpr ⟨_, ?_, rfl⟩
  rw [String.toList_ofList, LeadingCut.leadingInteger_text_tooLong (by rw [hcount]; decide), hcount]

end SceneScript
