import Mathlib.Data.List.Forall2
import SceneScript.Proofs.Disassembly
import SceneScript.Proofs.Format

/-!
# The listing loses nothing

A listing is made for people: names are filled up to a column, blanks at the end of a line are
cut, jumps are repeated behind a semicolon, and addresses grow beyond four digits.  Still a
program can be read back from it, `readListing?`.  The text is cut at line ends and each line at
its blanks, however many there are.  Of the words that remain, the first is the address, the
second the name of the opcode, and as many more as the opcode has operands are its bytes; what
follows is not looked at.

So two programs that disassemble without a failure have the same listing only if they are the
same.  The lines are those of the instructions, one each and in order, and what stands before
the first blank of a line is a number in hexadecimal, the address of the instruction.
-/

namespace SceneScript

namespace Text

/-! ## Numbers in hexadecimal -/

/-- One more digit behind a number. -/
def shiftHex? (n : Nat) (c : Char) : Option Nat := (hexValue? c).map (16 * n + ·)

/-- The number that hexadecimal digits stand for. -/
def unhex? (digits : List Char) : Option Nat := digits.foldlM shiftHex? 0

theorem hexValue?_digitChar : ∀ d < 16, hexValue? (Nat.digitChar d).toUpper = some d := by decide

theorem foldlM_zeros (k : Nat) : (List.replicate k '0').foldlM shiftHex? 0 = some 0 := by
  induction k with
  | zero => rfl
  | succ k ih => rw [List.replicate_succ, List.foldlM_cons]; exact ih

theorem unhex?_toDigits (n : Nat) : unhex? ((Nat.toDigits 16 n).map Char.toUpper) = some n := by
  induction n using Nat.strongRecOn with
  | ind n ih =>
      by_cases hn : n < 16
      · rw [Nat.toDigits_of_lt_base hn]
        simp [unhex?, shiftHex?, hexValue?_digitChar n hn]
      · have hbefore := ih (n / 16) (by omega)
        rw [Nat.toDigits_of_base_le (by decide) (by omega), List.map_append, unhex?,
          List.foldlM_append, ← unhex?, hbefore]
        simp [shiftHex?, hexValue?_digitChar (n % 16) (by omega), Nat.div_add_mod]

/-- A number in hexadecimal reads as that number, whatever width it was filled up to. -/
theorem unhex?_hex (width n : Nat) : unhex? (hex .upper width n).toList = some n := by
  rw [hex, String.toList_ofList, unhex?, List.foldlM_append, foldlM_zeros]
  exact unhex?_toDigits n

theorem isSome_hexValue?_of_foldlM {digits : List Char} {m n : Nat}
    (h : digits.foldlM shiftHex? m = some n) : ∀ c ∈ digits, (hexValue? c).isSome := by
  induction digits generalizing m with
  | nil => exact fun _ hc => absurd hc List.not_mem_nil
  | cons c rest ih =>
      rw [List.foldlM_cons] at h
      obtain ⟨k, hk, hrest⟩ := Option.bind_eq_some_iff.mp h
      obtain ⟨d, hd, -⟩ := Option.map_eq_some_iff.mp hk
      refine List.forall_mem_cons.mpr ⟨?_, ih hrest⟩
      rw [hd]
      rfl

theorem not_mem_hex {c : Char} (h : hexValue? c = none) (width n : Nat) :
    c ∉ (hex .upper width n).toList := by
  intro hc
  have hdigit := isSome_hexValue?_of_foldlM (unhex?_hex width n) c hc
  rw [h] at hdigit
  cases hdigit

theorem hex_ne_nil (width n : Nat) : (hex .upper width n).toList ≠ [] := by
  rw [hex, String.toList_ofList]
  simp [Nat.toDigits_ne_nil]

/-! ## Words -/

/-- The parts of a text between blanks. -/
def words (text : List Char) : List (List Char) :=
  (text.splitOn ' ').filter fun word => !word.isEmpty

theorem words_append (before after : List Char) :
    words (before ++ ' ' :: after) = words before ++ words after := by
  rw [words, List.splitOn, List.splitOnP_append_cons _ _ (by decide), List.filter_append]
  rfl

theorem words_word {word : List Char} (hne : word ≠ []) (hblank : ' ' ∉ word) :
    words word = [word] := by
  rw [words, List.splitOn, List.splitOnP_eq_singleton, List.filter_cons_of_pos (by simp [hne])]
  · rfl
  · intro c hc
    simp only [beq_eq_false_iff_ne]
    rintro rfl
    exact hblank hc

theorem words_blanks (text : List Char) (n : Nat) :
    words (text ++ List.replicate n ' ') = words text := by
  induction n with
  | zero => rw [List.replicate_zero, List.append_nil]
  | succ n ih =>
      rw [List.replicate_succ', ← List.append_assoc, words_append, ih]
      exact List.append_nil _

theorem words_intercalate {parts : List (List Char)} (h : ∀ part ∈ parts, part ≠ [] ∧ ' ' ∉ part) :
    words ([' '].intercalate parts) = parts := by
  by_cases hparts : parts = []
  · rw [hparts]
    rfl
  · rw [words, List.splitOn_intercalate ' ' (fun part hpart => (h part hpart).2) hparts,
      List.filter_eq_self]
    intro part hpart
    simp [(h part hpart).1]

end Text

/-! ## Cutting blanks at the end -/

theorem toList_trimRight (s : String) :
    ∃ n, s.toList = (trimRight s).toList ++ List.replicate n ' ' := by
  refine ⟨(s.toList.reverse.takeWhile (· == ' ')).length, ?_⟩
  have hblanks : s.toList.reverse.takeWhile (· == ' ') =
      List.replicate (s.toList.reverse.takeWhile (· == ' ')).length ' ' := by
    refine List.eq_replicate_of_mem fun c hc => ?_
    simpa using (List.all_eq_true.mp List.all_takeWhile) c hc
  rw [trimRight, String.toList_ofList, ← List.reverse_replicate, ← hblanks, ← List.reverse_append,
    List.takeWhile_append_dropWhile, List.reverse_reverse]

theorem words_trimRight (s : String) : Text.words (trimRight s).toList = Text.words s.toList := by
  obtain ⟨n, hn⟩ := toList_trimRight s
  rw [hn, Text.words_blanks]

theorem mem_of_mem_trimRight {s : String} {c : Char} (h : c ∈ (trimRight s).toList) :
    c ∈ s.toList := by
  obtain ⟨n, hn⟩ := toList_trimRight s
  rw [hn]
  exact List.mem_append_left _ h

/-- What stands before a character that is no blank is not cut. -/
theorem prefix_trimRight {s : String} {before after : List Char} {c : Char}
    (h : s.toList = before ++ c :: after) (hc : c ≠ ' ') : before <+: (trimRight s).toList := by
  obtain ⟨n, hn⟩ := toList_trimRight s
  rw [hn] at h
  rcases List.append_eq_append_iff.mp h with ⟨more, hbefore, hblanks⟩ | ⟨more, htrimmed, -⟩
  · have hmem : c ∈ List.replicate n ' ' := by
      rw [hblanks]
      exact List.mem_append_right _ List.mem_cons_self
    exact absurd (List.eq_of_mem_replicate hmem) hc
  · rw [htrimmed]
    exact List.prefix_append _ _

/-! ## Lines -/

theorem Opcode.isBlankFree_name (op : Opcode) :
    op.name.toList ≠ [] ∧ ' ' ∉ op.name.toList ∧ '\n' ∉ op.name.toList := by
  cases op
  all_goals decide

/-- The opcode with a name. -/
def Opcode.named? (name : List Char) : Option Opcode :=
  Opcode.all.find? fun op => op.name.toList == name

theorem Opcode.named?_name (op : Opcode) : Opcode.named? op.name.toList = some op := by
  cases op
  all_goals decide

/-- The bytes of the instruction in a line. -/
def readLine? (line : List Char) : Option (List UInt8) :=
  match Text.words line with
  | _ :: name :: rest => do
    let opcode ← Opcode.named? name
    let operands ← (rest.take opcode.operandCount).mapM Text.unhex?
    return opcode.byte :: operands.map UInt8.ofNat
  | _ => none

/-- The program in a listing. -/
def readListing? (text : List Char) : Option Program :=
  if text = [] then some []
  else do
    let instructions ← (text.splitOn '\n').mapM readLine?
    return instructions.flatten

theorem not_mem_intercalate {c : Char} {separator : List Char} {parts : List (List Char)}
    (hseparator : c ∉ separator) (h : ∀ part ∈ parts, c ∉ part) :
    c ∉ separator.intercalate parts := by
  induction parts with
  | nil => exact List.not_mem_nil
  | cons part rest ih =>
      obtain ⟨hpart, hrest⟩ := List.forall_mem_cons.mp h
      by_cases hne : rest = []
      · rw [hne, List.intercalate_singleton]
        exact hpart
      · rw [List.intercalate_cons_of_ne_nil hne]
        simp [hpart, hseparator, ih hrest]

namespace Instruction

/-- The digits of the address that a line starts with. -/
def addressDigits (i : Instruction) : List Char := (Text.hex .upper 4 i.address).toList

/-- The digits of the operands. -/
def operandDigits (i : Instruction) : List (List Char) :=
  i.operands.map fun b => (Text.hex .upper 2 b.toNat).toList

/-- How an instruction is laid out in a line before blanks are cut. -/
theorem exists_layout (i : Instruction) : ∃ s n, i.listed = trimRight s ∧ s.toList =
    i.addressDigits ++ ' ' :: ' ' :: (i.opcode.name.toList ++ List.replicate n ' ' ++
      ' ' :: [' '].intercalate i.operandDigits) := by
  refine ⟨_, nameColumn - i.opcode.name.length, rfl, ?_⟩
  simp [padRight, addressDigits, operandDigits, String.toList_intercalate, Function.comp_def]

theorem words_listed (i : Instruction) :
    Text.words i.listed.toList = i.addressDigits :: i.opcode.name.toList :: i.operandDigits := by
  obtain ⟨s, n, hlisted, hs⟩ := i.exists_layout
  obtain ⟨hname, hblank, -⟩ := i.opcode.isBlankFree_name
  have haddress : Text.words i.addressDigits = [i.addressDigits] :=
    Text.words_word (Text.hex_ne_nil _ _) (Text.not_mem_hex (by decide) _ _)
  have hoperands : Text.words ([' '].intercalate i.operandDigits) = i.operandDigits := by
    refine Text.words_intercalate fun part hpart => ?_
    obtain ⟨b, -, rfl⟩ := List.mem_map.mp hpart
    exact ⟨Text.hex_ne_nil _ _, Text.not_mem_hex (by decide) _ _⟩
  have hgap := Text.words_append [] (i.opcode.name.toList ++ List.replicate n ' ' ++
    ' ' :: [' '].intercalate i.operandDigits)
  rw [hlisted, words_trimRight, hs, Text.words_append, haddress, ← List.nil_append (' ' :: _), hgap,
    Text.words_append, Text.words_blanks, Text.words_word hname hblank, hoperands]
  rfl

theorem address_prefix_listed (i : Instruction) : i.addressDigits ++ [' '] <+: i.listed.toList := by
  obtain ⟨s, n, hlisted, hs⟩ := i.exists_layout
  obtain ⟨hname, hblank, -⟩ := i.opcode.isBlankFree_name
  obtain ⟨c, rest, hc⟩ := List.exists_cons_of_ne_nil hname
  rw [hc] at hs hblank
  have hshape : s.toList = (i.addressDigits ++ [' ', ' ']) ++
      c :: (rest ++ List.replicate n ' ' ++ ' ' :: [' '].intercalate i.operandDigits) := by
    rw [hs]
    simp
  have hkept : i.addressDigits ++ [' ', ' '] <+: i.listed.toList := by
    rw [hlisted]
    exact prefix_trimRight hshape fun hfirst => hblank (hfirst ▸ List.mem_cons_self)
  refine List.IsPrefix.trans ⟨[' '], ?_⟩ hkept
  rw [List.append_assoc]
  rfl

theorem lineFree_listed (i : Instruction) : '\n' ∉ i.listed.toList := by
  obtain ⟨s, n, hlisted, hs⟩ := i.exists_layout
  obtain ⟨-, -, hname⟩ := i.opcode.isBlankFree_name
  have haddress : '\n' ∉ i.addressDigits := Text.not_mem_hex (by decide) _ _
  have hoperands : '\n' ∉ [' '].intercalate i.operandDigits := by
    refine not_mem_intercalate (by decide) fun part hpart => ?_
    obtain ⟨b, -, rfl⟩ := List.mem_map.mp hpart
    exact Text.not_mem_hex (by decide) _ _
  intro hmem
  rw [hlisted] at hmem
  have hs' := mem_of_mem_trimRight hmem
  rw [hs] at hs'
  simp [haddress, hname, hoperands] at hs'

/-- A line is the instruction, and behind a blank perhaps its targets. -/
theorem line_of_ok {i : Instruction} {text : String} (h : i.line = .ok text) :
    ∃ comment, text.toList = i.listed.toList ++ comment ∧ '\n' ∉ comment ∧
      (comment = [] ∨ ∃ rest, comment = ' ' :: rest) := by
  unfold line at h
  cases htargets : i.targets with
  | error fault =>
      rw [htargets] at h
      cases h
  | ok targets =>
      rw [htargets] at h
      cases targets with
      | nil =>
          change Except.ok i.listed = Except.ok text at h
          rw [← Except.ok.inj h]
          exact ⟨[], (List.append_nil _).symm, List.not_mem_nil, .inl rfl⟩
      | cons target rest =>
          change Except.ok (i.listed ++ "  ; -> " ++ commaList
            ((target :: rest).map (Text.hex .upper 4))) =
            Except.ok text at h
          have harrow : "  ; -> ".toList = ' ' :: [' ', ';', ' ', '-', '>', ' '] := by decide
          rw [← Except.ok.inj h, String.append_assoc, String.toList_append,
            String.toList_append, harrow, List.cons_append, commaList, String.toList_intercalate]
          refine ⟨_, rfl, ?_, .inr ⟨_, rfl⟩⟩
          rw [← List.cons_append, List.mem_append, not_or]
          refine ⟨by decide, not_mem_intercalate (by decide) fun part hpart => ?_⟩
          simp only [List.map_map, List.mem_map] at hpart
          obtain ⟨n, -, rfl⟩ := hpart
          exact Text.not_mem_hex (by decide) _ _

/-- A line shows an instruction: before its first blank stands the address, and it is read as
the bytes. -/
structure ShownIn (i : Instruction) (line : List Char) : Prop where
  digits : i.addressDigits ++ [' '] <+: line
  address : Text.unhex? (line.takeWhile (· != ' ')) = some i.address
  bytes : readLine? line = some i.bytes

theorem mapM_unhex? (operands : List UInt8) :
    (operands.map fun b => (Text.hex .upper 2 b.toNat).toList).mapM Text.unhex? =
      some (operands.map UInt8.toNat) := by
  induction operands with
  | nil => rfl
  | cons b rest ih =>
      rw [List.map_cons, List.mapM_cons, Text.unhex?_hex, ih]
      rfl

theorem shownIn_of_line {i : Instruction} (arity : i.operands.length = i.opcode.operandCount)
    {text : String} (h : i.line = .ok text) : i.ShownIn text.toList ∧ '\n' ∉ text.toList := by
  obtain ⟨comment, htext, hcomment, hblank⟩ := line_of_ok h
  have hdigits : i.addressDigits ++ [' '] <+: text.toList := by
    rw [htext]
    exact i.address_prefix_listed.trans (List.prefix_append _ _)
  have hwords : ∃ others, Text.words text.toList =
      i.addressDigits :: i.opcode.name.toList :: (i.operandDigits ++ others) := by
    rw [htext]
    rcases hblank with rfl | ⟨rest, rfl⟩
    · exact ⟨[], by rw [List.append_nil, List.append_nil, words_listed]⟩
    · exact ⟨Text.words rest, by rw [Text.words_append, words_listed]; rfl⟩
  refine ⟨⟨hdigits, ?_, ?_⟩, ?_⟩
  · obtain ⟨rest, hrest⟩ := hdigits
    have hfree : ∀ c ∈ i.addressDigits, (c != ' ') = true := by
      intro c hc
      refine bne_iff_ne.mpr ?_
      rintro rfl
      exact Text.not_mem_hex (by decide) _ _ hc
    rw [← hrest, List.append_assoc, List.takeWhile_append_of_pos hfree, List.singleton_append,
      List.takeWhile_cons_of_neg (by decide), List.append_nil]
    exact Text.unhex?_hex _ _
  · obtain ⟨others, hothers⟩ := hwords
    have hlength : i.operandDigits.length = i.opcode.operandCount := by
      rw [operandDigits, List.length_map, arity]
    have hoperands : ((i.operandDigits ++ others).take i.opcode.operandCount).mapM Text.unhex? =
        some (i.operands.map UInt8.toNat) := by
      rw [List.take_left' hlength]
      exact mapM_unhex? i.operands
    have hbytes : (i.operands.map UInt8.toNat).map UInt8.ofNat = i.operands := by
      simp [Function.comp_def]
    rw [readLine?, hothers]
    refine Option.bind_eq_some_iff.mpr ⟨i.opcode, i.opcode.named?_name, ?_⟩
    refine Option.bind_eq_some_iff.mpr ⟨_, hoperands, ?_⟩
    rw [hbytes]
    rfl
  · rw [htext, List.mem_append, not_or]
    exact ⟨i.lineFree_listed, hcomment⟩

end Instruction

/-! ## Listings -/

theorem shownIn_of_mapM {instructions : List Instruction} {lines : List String}
    (arity : ∀ i ∈ instructions, i.operands.length = i.opcode.operandCount)
    (h : instructions.mapM Instruction.line = .ok lines) :
    List.Forall₂ Instruction.ShownIn instructions (lines.map String.toList) ∧
      ∀ line ∈ lines.map String.toList, '\n' ∉ line := by
  induction instructions generalizing lines with
  | nil =>
      cases h
      exact ⟨.nil, fun _ hline => absurd hline List.not_mem_nil⟩
  | cons i rest ih =>
      obtain ⟨hi, hrest⟩ := List.forall_mem_cons.mp arity
      obtain ⟨text, htext⟩ := Instruction.line_ok hi
      obtain ⟨others, hothers⟩ := mapM_line_ok hrest
      rw [List.mapM_cons, htext, hothers] at h
      cases h
      obtain ⟨hshown, hline⟩ := Instruction.shownIn_of_line hi htext
      obtain ⟨hshownRest, hlineRest⟩ := ih hrest hothers
      exact ⟨.cons hshown hshownRest, List.forall_mem_cons.mpr ⟨hline, hlineRest⟩⟩

theorem mapM_readLine? {instructions : List Instruction} {lines : List (List Char)}
    (h : List.Forall₂ Instruction.ShownIn instructions lines) :
    lines.mapM readLine? = some (instructions.map Instruction.bytes) := by
  induction h with
  | nil => rfl
  | cons hline _ ih =>
      rw [List.mapM_cons, hline.bytes, ih]
      rfl

/-- The bytes of the instructions are the program, if disassembly comes to its end. -/
theorem flatten_bytes_disassemble {program : Program} (h : (disassemble program).failure = none) :
    ((disassemble program).instructions.map Instruction.bytes).flatten = program := by
  obtain ⟨codes, rest, hprogram, hplaced, hstops⟩ := Code.exists_cut 0 program
  have hrest : rest = [] := hstops.none_iff.mp h
  rw [hrest, List.append_nil] at hprogram
  rw [disassemble, hplaced, ← List.flatMap_def, Code.bytes_place]
  exact hprogram.symm

theorem instructions_ne_nil {program : Program} (h : (disassemble program).failure = none)
    (hne : program ≠ []) : (disassemble program).instructions ≠ [] := by
  intro hnil
  have hbytes := flatten_bytes_disassemble h
  rw [hnil] at hbytes
  exact hne hbytes.symm

/-- The lines of a listing show the instructions of the program. -/
theorem shownIn_listing {program : Program} (h : (disassemble program).failure = none)
    (hne : program ≠ []) : ∃ text, listing program = .ok text ∧
      List.Forall₂ Instruction.ShownIn (disassemble program).instructions
        (text.toList.splitOn '\n') := by
  have arity : ∀ i ∈ (disassemble program).instructions,
      i.operands.length = i.opcode.operandCount :=
    fun _ hi => arity_of_mem_disassembleFrom hi
  obtain ⟨lines, hlines⟩ := mapM_line_ok arity
  obtain ⟨hshown, hfree⟩ := shownIn_of_mapM arity hlines
  have hnonempty : lines.map String.toList ≠ [] := by
    intro hnil
    rw [hnil] at hshown
    exact instructions_ne_nil h hne (List.forall₂_nil_right_iff.mp hshown)
  refine ⟨"\n".intercalate lines, listing_of_lines h hlines, ?_⟩
  have hend : "\n".toList = ['\n'] := by decide
  rw [String.toList_intercalate, hend, List.splitOn_intercalate '\n' hfree hnonempty]
  exact hshown

/-- A program can be read back from its listing. -/
theorem readListing?_listing {program : Program} (h : (disassemble program).failure = none) :
    ∃ text, listing program = .ok text ∧ readListing? text.toList = some program := by
  by_cases hne : program = []
  · rw [hne]
    exact ⟨"", by simp [listing, listingLines, disassemble, disassembleFrom]; rfl, rfl⟩
  · obtain ⟨text, htext, hshown⟩ := shownIn_listing h hne
    have hnonempty : text.toList ≠ [] := by
      intro hnil
      rw [hnil, List.splitOn_nil] at hshown
      generalize (disassemble program).instructions = instructions at hshown
      cases hshown with
      | cons hline _ => exact absurd (List.eq_nil_of_prefix_nil hline.digits) (by simp)
    refine ⟨text, htext, ?_⟩
    rw [readListing?, if_neg hnonempty, mapM_readLine? hshown]
    exact congrArg some (flatten_bytes_disassemble h)

/-- **The listing loses nothing.**  A program that disassembles without a failure has a listing
from which it is read back, so that no two such programs have the same.  If there is anything to
list, the listing has one line for each instruction, in order, and starts it with the address:
digits and a blank, and the number they stand for in hexadecimal is the address of the
instruction. -/
theorem listing_faithful :
    (∀ program, (disassemble program).failure = none →
      ∃ text, listing program = .ok text ∧ readListing? text.toList = some program) ∧
    (∀ p q, (disassemble p).failure = none → (disassemble q).failure = none →
      listing p = listing q → p = q) ∧
    ∀ program, (disassemble program).failure = none → program ≠ [] →
      ∃ text, listing program = .ok text ∧
        List.Forall₂ Instruction.ShownIn (disassemble program).instructions
          (text.toList.splitOn '\n') := by
  refine ⟨fun program h => readListing?_listing h, ?_, fun program h hne => shownIn_listing h hne⟩
  intro p q hp hq hlistings
  obtain ⟨text, htext, hread⟩ := readListing?_listing hp
  obtain ⟨other, hother, hread'⟩ := readListing?_listing hq
  rw [hlistings, hother] at htext
  rw [← Except.ok.inj htext, hread'] at hread
  exact (Option.some.inj hread).symm

theorem disassemble_jump (low : UInt8) :
    disassemble [0x02, 0x00, low, 0x00] = ⟨[⟨0, .jump, [0x00, low]⟩, ⟨3, .halt, []⟩], none⟩ := by
  have h := Code.disassembleFrom_encode [⟨.jump, [0x00, low], rfl⟩, ⟨.halt, [], rfl⟩] 0 []
  rw [List.append_nil, disassembleFrom] at h
  exact h

/-- A jump to an end is listed in two lines, the second at address 3; a jump elsewhere has
another listing. -/
theorem listing_faithful_jump :
    (∃ text first second, listing [0x02, 0x00, 0x03, 0x00] = .ok text ∧
      text.toList.splitOn '\n' = [first, second] ∧ ['0', '0', '0', '3', ' '] <+: second) ∧
    listing [0x02, 0x00, 0x03, 0x00] ≠ listing [0x02, 0x00, 0x00, 0x00] := by
  constructor
  · obtain ⟨text, htext, hshown⟩ := listing_faithful.2.2 [0x02, 0x00, 0x03, 0x00]
      (by rw [disassemble_jump]) (by decide)
    rw [disassemble_jump] at hshown
    generalize hlines : text.toList.splitOn '\n' = lines at hshown
    cases hshown with
    | cons hfirst hrest =>
        cases hrest with
        | cons hsecond hend =>
            cases hend
            exact ⟨text, _, _, htext, hlines, hsecond.digits⟩
  · intro hsame
    have hprograms := listing_faithful.2.1 _ _ (by rw [disassemble_jump])
      (by rw [disassemble_jump]) hsame
    exact absurd hprograms (by decide)

end SceneScript
