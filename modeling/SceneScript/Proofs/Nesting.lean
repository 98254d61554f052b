import Mathlib.Data.List.Pairwise
import Mathlib.Logic.ExistsUnique
import SceneScript.Proofs.Disassembly

/-!
# Conditionals are properly nested

In a program nothing is left of a conditional but two jumps and what stands between them:

    head      IF_TRUE  flag  turn
    head + 5  code for a clear flag
    turn - 3  JUMP  stop
    turn      code for a set flag
    stop      what follows

A `Span` is such a triple of addresses.  Every test of a program is the head of one span and
every jump is the turn of one, two spans are apart or one is in a body of the other, and no span
turns or stops within the code of an event.  The addresses are read back from the disassembly;
that they are those of the plan rests on the fact that a program has one instruction at an
address.
-/

namespace SceneScript

/-! ## Spans -/

/-- The addresses of a conditional: where its test is, where the code for a set flag starts, and
where that ends. -/
@[ext] structure Span where
  head : Nat
  turn : Nat
  stop : Nat
  /-- The test and the jump stand before the turn. -/
  forward : head + 8 ≤ turn
  ordered : turn ≤ stop

namespace Span

/-- A conditional within the code for a clear flag of another. -/
def InClear (s outer : Span) : Prop := outer.head + 5 ≤ s.head ∧ s.stop + 3 ≤ outer.turn

/-- A conditional within the code for a set flag of another. -/
def InSet (s outer : Span) : Prop := outer.turn ≤ s.head ∧ s.stop ≤ outer.stop

/-- One conditional follows the other. -/
def Apart (s other : Span) : Prop := s.stop ≤ other.head ∨ other.stop ≤ s.head

/-- Two conditionals do not overlap, or one is within a body of the other. -/
def Nested (s other : Span) : Prop :=
  s.Apart other ∨ (s.InClear other ∨ s.InSet other) ∨ (other.InClear s ∨ other.InSet s)

instance : Std.Symm Nested where
  symm _ _ h := by
    rcases h with h | h | h
    · exact .inl h.symm
    · exact .inr (.inr h)
    · exact .inr (.inl h)

/-- The instruction is the test of a span. -/
structure IsTest (s : Span) (i : Instruction) : Prop where
  opcode : i.opcode = .ifTrue
  address : i.address = s.head
  targets : i.targets = .ok [s.turn]

/-- The instruction is the jump of a span. -/
structure IsJump (s : Span) (j : Instruction) : Prop where
  opcode : j.opcode = .jump
  address : j.address + 3 = s.turn
  targets : j.targets = .ok [s.stop]

/-- Both instructions of a span are among the given ones. -/
def Placed (instructions : List Instruction) (s : Span) : Prop :=
  (∃ i ∈ instructions, s.IsTest i) ∧ ∃ j ∈ instructions, s.IsJump j

theorem Placed.mono {instructions others : List Instruction} {s : Span} (h : s.Placed instructions)
    (hsub : ∀ i ∈ instructions, i ∈ others) : s.Placed others := by
  obtain ⟨⟨i, hi, htest⟩, j, hj, hjump⟩ := h
  exact ⟨⟨i, hsub i hi, htest⟩, j, hsub j hj, hjump⟩

/-- If the instruction jumps, it belongs to one of the spans. -/
def Covered (spans : List Span) (i : Instruction) : Prop :=
  (i.opcode = .ifTrue → ∃ s ∈ spans, s.IsTest i) ∧ (i.opcode = .jump → ∃ s ∈ spans, s.IsJump i)

theorem Covered.mono {spans others : List Span} {i : Instruction} (h : Covered spans i)
    (hsub : ∀ s ∈ spans, s ∈ others) : Covered others i := by
  constructor
  · intro hop
    obtain ⟨s, hs, htest⟩ := h.1 hop
    exact ⟨s, hsub s hs, htest⟩
  · intro hop
    obtain ⟨s, hs, hjump⟩ := h.2 hop
    exact ⟨s, hsub s hs, hjump⟩

end Span

namespace Plan

/-- The span of a test whose bodies have the given plans. -/
def span (base : Nat) (whenSet whenClear : Plan) : Span where
  head := base
  turn := base + 8 + whenClear.size
  stop := base + 8 + whenClear.size + whenSet.size
  forward := Nat.le_add_right _ _
  ordered := Nat.le_add_right _ _

/-- The spans of a plan whose code starts at an address. -/
def spans (base : Nat) : Plan → List Span
  | .done => []
  | .straight emission next => next.spans (base + emission.slots.length)
  | .test _ whenSet whenClear next =>
    span base whenSet whenClear :: (whenClear.spans (base + 5) ++
      (whenSet.spans (base + 8 + whenClear.size) ++ next.spans
        (base + 8 + whenClear.size + whenSet.size)))

theorem mem_spans_test {base flag : Nat} {whenSet whenClear next : Plan} {s : Span} :
    s ∈ (test flag whenSet whenClear next).spans base ↔
      s = span base whenSet whenClear ∨ s ∈ whenClear.spans (base + 5) ∨
        s ∈ whenSet.spans (base + 8 + whenClear.size) ∨
        s ∈ next.spans (base + 8 + whenClear.size + whenSet.size) := by
  simp only [spans, List.mem_cons, List.mem_append]

theorem bounds_of_mem_spans {plan : Plan} {base : Nat} {s : Span} (h : s ∈ plan.spans base) :
    base ≤ s.head ∧ s.stop ≤ base + plan.size := by
  induction plan generalizing base with
  | done => exact absurd h List.not_mem_nil
  | straight emission next ih =>
      have := ih h
      simp only [size]
      omega
  | test flag whenSet whenClear next ihSet ihClear ih =>
      simp only [size]
      rcases mem_spans_test.mp h with rfl | h | h | h
      · simp only [span]
        omega
      · have := ihClear h
        omega
      · have := ihSet h
        omega
      · have := ih h
        omega

/-- The spans of a plan are nested: those of different parts of a test do not meet, and those of
its bodies are within them. -/
theorem pairwise_spans (plan : Plan) (base : Nat) : (plan.spans base).Pairwise Span.Nested := by
  induction plan generalizing base with
  | done => exact .nil
  | straight emission next ih => exact ih _
  | test flag whenSet whenClear next ihSet ihClear ih =>
      rw [spans, List.pairwise_cons, List.pairwise_append, List.pairwise_append]
      refine ⟨?_, ihClear _, ⟨ihSet _, ih _, ?_⟩, ?_⟩
      · intro s hs
        rw [List.mem_append, List.mem_append] at hs
        rcases hs with hs | hs | hs
        all_goals
          have := bounds_of_mem_spans hs
          simp only [Span.Nested, Span.Apart, Span.InClear, Span.InSet, span]
          omega
      · intro s hs other hother
        have := bounds_of_mem_spans hs
        have := bounds_of_mem_spans hother
        exact .inl (.inl (by omega))
      · intro s hs other hother
        have := bounds_of_mem_spans hs
        rcases List.mem_append.mp hother with hother | hother
        all_goals
          have := bounds_of_mem_spans hother
          exact .inl (.inl (by omega))

/-! ## Tests and jumps

The instructions of a plan that jump are those of its spans. -/

theorem isTest_span {flag base : Nat} {whenSet whenClear : Plan} (hflag : flag ≤ 0xffff)
    (hturn : base + 8 + whenClear.size ≤ 0xffff) :
    (span base whenSet whenClear).IsTest
      (Draft.located ⟨.ifTrue, Operand.word flag ++ Operand.word (base + 8 + whenClear.size)⟩
        base) :=
  ⟨rfl, rfl, Draft.targets_ifTrue hflag hturn base⟩

theorem isJump_span {base : Nat} {whenSet whenClear : Plan}
    (hstop : base + 8 + whenClear.size + whenSet.size ≤ 0xffff) :
    (span base whenSet whenClear).IsJump
      (Draft.located ⟨.jump, Operand.word (base + 8 + whenClear.size + whenSet.size)⟩
        (base + 5 + whenClear.size)) := by
  refine ⟨rfl, ?_, Draft.targets_jump hstop _⟩
  simp only [Draft.located, span]
  omega

theorem mem_located_test {flag base : Nat} {whenSet whenClear next : Plan} {i : Instruction} :
    i ∈ (test flag whenSet whenClear next).located base ↔
      i = Draft.located ⟨.ifTrue,
        Operand.word flag ++ Operand.word (base + 8 + whenClear.size)⟩ base ∨
      i ∈ whenClear.located (base + 5) ∨
      i = Draft.located ⟨.jump, Operand.word (base + 8 + whenClear.size + whenSet.size)⟩
        (base + 5 + whenClear.size) ∨
      i ∈ whenSet.located (base + 8 + whenClear.size) ∨
      i ∈ next.located (base + 8 + whenClear.size + whenSet.size) := by
  simp only [located_test, List.mem_append, List.mem_cons, or_assoc]

/-- Every span has its test and its jump in the code. -/
theorem placed_of_mem_spans {plan : Plan} {base : Nat} (hfits : ∀ d ∈ plan.drafts base, d.Fits)
    {s : Span} (h : s ∈ plan.spans base) : s.Placed (plan.located base) := by
  induction plan generalizing base with
  | done => exact absurd h List.not_mem_nil
  | straight emission next ih =>
      rw [located_straight]
      exact (ih (fits_straight.mp hfits).2 h).mono fun _ hi => List.mem_append_right _ hi
  | test flag whenSet whenClear next ihSet ihClear ih =>
      obtain ⟨⟨hflag, hturn, hstop⟩, hclear, hset, hnext⟩ := fits_test.mp hfits
      rcases mem_spans_test.mp h with rfl | h | h | h
      · exact ⟨⟨_, mem_located_test.mpr (.inl rfl), isTest_span hflag hturn⟩, _,
          mem_located_test.mpr (.inr (.inr (.inl rfl))), isJump_span hstop⟩
      · exact (ihClear hclear h).mono fun _ hi => mem_located_test.mpr (.inr (.inl hi))
      · exact (ihSet hset h).mono fun _ hi => mem_located_test.mpr (.inr (.inr (.inr (.inl hi))))
      · exact (ih hnext h).mono fun _ hi => mem_located_test.mpr (.inr (.inr (.inr (.inr hi))))

end Plan

/-- The code of an event that is no test does not jump. -/
theorem Scope.not_branch_of_mem_locate {scope : Scope} {kind : EventKind} {args : Fields}
    {emission : Emission} (h : scope.emit kind args = .ok emission) {address : Nat}
    {i : Instruction} (hi : i ∈ locate address emission.drafts) :
    i.opcode ≠ .ifTrue ∧ i.opcode ≠ .jump := by
  obtain ⟨d, hd, hop⟩ := opcode_of_mem_locate hi
  rw [← hop]
  exact Scope.not_branch_of_emit h hd

/-- Conversely, every instruction that jumps belongs to a span. -/
theorem Planned.covered_of_mem_located {scope : Scope} {script : Script} {plan : Plan}
    (h : Planned scope script plan) {base : Nat} (hfits : ∀ d ∈ plan.drafts base, d.Fits)
    {i : Instruction} (hi : i ∈ plan.located base) : Span.Covered (plan.spans base) i := by
  induction h generalizing base with
  | nil => exact absurd hi List.not_mem_nil
  | leaf _ hemit _ ih =>
      rw [Plan.located_straight] at hi
      rcases List.mem_append.mp hi with hi | hi
      · obtain ⟨htest, hjump⟩ := Scope.not_branch_of_mem_locate hemit hi
        exact ⟨fun hop => absurd hop htest, fun hop => absurd hop hjump⟩
      · exact ih (Plan.fits_straight.mp hfits).2 hi
  | test _ _ _ _ _ ihSet ihClear ih =>
      obtain ⟨⟨hflag, hturn, hstop⟩, hclear, hset, hnext⟩ := Plan.fits_test.mp hfits
      rcases Plan.mem_located_test.mp hi with rfl | hi | rfl | hi | hi
      · exact ⟨fun _ => ⟨_, Plan.mem_spans_test.mpr (.inl rfl), Plan.isTest_span hflag hturn⟩,
          fun hop => (by cases hop)⟩
      · exact (ihClear hclear hi).mono fun _ hs => Plan.mem_spans_test.mpr (.inr (.inl hs))
      · exact ⟨fun hop => (by cases hop),
          fun _ => ⟨_, Plan.mem_spans_test.mpr (.inl rfl), Plan.isJump_span hstop⟩⟩
      · exact (ihSet hset hi).mono fun _ hs => Plan.mem_spans_test.mpr (.inr (.inr (.inl hs)))
      · exact (ih hnext hi).mono fun _ hs => Plan.mem_spans_test.mpr (.inr (.inr (.inr hs)))

/-! ## Groups

The code of a script falls into groups that are entered at their start only: the code of an
event that is no test, the header of a test, its jump, and the end. -/

/-- Drafts that belong together, and the address of the first. -/
structure Group where
  address : Nat
  drafts : List Draft

namespace Group

/-- The address behind a group. -/
def stop (g : Group) : Nat := g.address + (g.drafts.flatMap Draft.slots).length

theorem stop_jump (address target : Nat) :
    stop ⟨address, [⟨.jump, Operand.word target⟩]⟩ = address + 3 := rfl

/-- The instructions of a group. -/
def instructions (g : Group) : List Instruction := locate g.address g.drafts

/-- `Tiled start groups stop`: the groups follow one another without a gap. -/
def Tiled : Nat → List Group → Nat → Prop
  | start, [], stop => start = stop
  | start, g :: rest, stop => g.address = start ∧ Tiled g.stop rest stop

theorem Tiled.append {groups others : List Group} {start middle stop : Nat}
    (h : Tiled start groups middle) (hothers : Tiled middle others stop) :
    Tiled start (groups ++ others) stop := by
  induction groups generalizing start with
  | nil =>
      cases h
      exact hothers
  | cons g rest ih => exact ⟨h.1, ih h.2⟩

theorem Tiled.le_address {groups : List Group} {start stop : Nat} (h : Tiled start groups stop)
    {g : Group} (hg : g ∈ groups) : start ≤ g.address := by
  induction groups generalizing start with
  | nil => exact absurd hg List.not_mem_nil
  | cons first rest ih =>
      obtain ⟨rfl, h⟩ := h
      rcases List.mem_cons.mp hg with rfl | hg
      · exact Nat.le_refl _
      · exact Nat.le_trans (Nat.le_add_right _ _) (ih h hg)

/-- Where a group starts, no group is cut. -/
theorem Tiled.not_within {groups : List Group} {start stop : Nat} (h : Tiled start groups stop)
    {first g : Group} (hfirst : first ∈ groups) (hg : g ∈ groups) :
    ¬(g.address < first.address ∧ first.address < g.stop) := by
  induction groups generalizing start with
  | nil => exact absurd hg List.not_mem_nil
  | cons head rest ih =>
      obtain ⟨-, h⟩ := h
      rcases List.mem_cons.mp hfirst with rfl | hfirst'
      · rcases List.mem_cons.mp hg with rfl | hg'
        · omega
        · have : first.stop ≤ g.address := h.le_address hg'
          have : first.address ≤ first.stop := Nat.le_add_right _ _
          omega
      · rcases List.mem_cons.mp hg with rfl | hg'
        · have : g.stop ≤ first.address := h.le_address hfirst'
          omega
        · exact ih h hfirst' hg'

/-- One of the groups has code and starts at the address. -/
def StartsAt (groups : List Group) (address : Nat) : Prop :=
  ∃ g ∈ groups, g.drafts ≠ [] ∧ g.address = address

theorem StartsAt.mono {groups others : List Group} {address : Nat} (h : StartsAt groups address)
    (hsub : ∀ g ∈ groups, g ∈ others) : StartsAt others address := by
  obtain ⟨g, hg, hstart⟩ := h
  exact ⟨g, hsub g hg, hstart⟩

end Group

namespace Plan

/-- The groups of a plan whose code starts at an address. -/
def groups (base : Nat) : Plan → List Group
  | .done => []
  | .straight emission next => ⟨base, emission.drafts⟩ :: next.groups (base + emission.slots.length)
  | .test flag whenSet whenClear next =>
    let turn := base + 8 + whenClear.size
    let stop := turn + whenSet.size
    ⟨base, [⟨.ifTrue, Operand.word flag ++ Operand.word turn⟩]⟩ :: (whenClear.groups (base + 5) ++
      ⟨base + 5 + whenClear.size,
        [⟨.jump, Operand.word stop⟩]⟩ :: (whenSet.groups turn ++ next.groups stop))

/-- The groups of a whole script. -/
def layout (plan : Plan) : List Group := plan.groups 0 ++ [⟨plan.size, [⟨.halt, []⟩]⟩]

theorem located_eq_groups (plan : Plan) (base : Nat) :
    plan.located base = (plan.groups base).flatMap Group.instructions := by
  induction plan generalizing base with
  | done => rfl
  | straight emission next ih =>
      rw [located_straight, groups, List.flatMap_cons, ih, Group.instructions]
  | test flag whenSet whenClear next ihSet ihClear ih =>
      simp only [located_test, groups, List.flatMap_cons, List.flatMap_append, ihClear, ihSet, ih,
        Group.instructions, locate, List.cons_append, List.nil_append, List.append_assoc]

theorem locate_whole_eq_layout (plan : Plan) :
    locate 0 plan.whole = plan.layout.flatMap Group.instructions := by
  rw [locate_whole, located_eq_groups, layout, List.flatMap_append]
  rfl

theorem mem_groups_test {base flag : Nat} {whenSet whenClear next : Plan} {g : Group} :
    g ∈ (test flag whenSet whenClear next).groups base ↔
      g = ⟨base, [⟨.ifTrue, Operand.word flag ++ Operand.word (base + 8 + whenClear.size)⟩]⟩ ∨
      g ∈ whenClear.groups (base + 5) ∨
      g = ⟨base + 5 + whenClear.size,
        [⟨.jump, Operand.word (base + 8 + whenClear.size + whenSet.size)⟩]⟩ ∨
      g ∈ whenSet.groups (base + 8 + whenClear.size) ∨
      g ∈ next.groups (base + 8 + whenClear.size + whenSet.size) := by
  simp only [groups, List.mem_cons, List.mem_append]

theorem tiled_groups (plan : Plan) (base : Nat) :
    Group.Tiled base (plan.groups base) (base + plan.size) := by
  induction plan generalizing base with
  | done => rfl
  | straight emission next ih =>
      refine ⟨rfl, ?_⟩
      rw [size, ← Nat.add_assoc]
      exact ih _
  | test flag whenSet whenClear next ihSet ihClear ih =>
      have hend : base + (8 + whenClear.size + whenSet.size + next.size) =
          base + 8 + whenClear.size + whenSet.size + next.size := by omega
      have hjump : base + 5 + whenClear.size + 3 = base + 8 + whenClear.size := by omega
      rw [size, hend]
      refine ⟨rfl, (ihClear (base + 5)).append ⟨rfl, ?_⟩⟩
      rw [Group.stop_jump, hjump]
      exact (ihSet _).append (ih _)

theorem tiled_layout (plan : Plan) : Group.Tiled 0 plan.layout (plan.size + 1) := by
  have hgroups := plan.tiled_groups 0
  rw [Nat.zero_add] at hgroups
  exact hgroups.append ⟨rfl, rfl⟩

/-- A plan has code at its start unless it has none at all. -/
theorem startsAt_base (plan : Plan) (base : Nat) :
    Group.StartsAt (plan.groups base) base ∨ plan.size = 0 := by
  induction plan generalizing base with
  | done => exact .inr rfl
  | straight emission next ih =>
      by_cases hempty : emission.drafts = []
      · have hslots : emission.slots.length = 0 := by rw [Emission.slots, hempty]; rfl
        rw [groups, size, hslots, Nat.zero_add]
        exact (ih base).imp_left fun h => h.mono fun _ hg => List.mem_cons_of_mem _ hg
      · exact .inl ⟨_, List.mem_cons_self, hempty, rfl⟩
  | test flag whenSet whenClear next =>
      exact .inl ⟨_, List.mem_cons_self, List.cons_ne_nil _ _, rfl⟩

/-- Where a span turns or stops, a group starts, or the plan ends. -/
theorem startsAt_of_mem_spans {plan : Plan} {base : Nat} {s : Span} (h : s ∈ plan.spans base)
    {address : Nat} (ha : address = s.turn ∨ address = s.stop) :
    Group.StartsAt (plan.groups base) address ∨ address = base + plan.size := by
  induction plan generalizing base with
  | done => exact absurd h List.not_mem_nil
  | straight emission next ih =>
      rw [groups, size, ← Nat.add_assoc]
      exact (ih h).imp_left fun h => h.mono fun _ hg => List.mem_cons_of_mem _ hg
  | test flag whenSet whenClear next ihSet ihClear ih =>
      have hsize : base + (test flag whenSet whenClear next).size =
          base + 8 + whenClear.size + whenSet.size + next.size := by
        simp only [size]
        omega
      rw [hsize]
      have hnext : ∀ {a : Nat},
          Group.StartsAt (next.groups (base + 8 + whenClear.size + whenSet.size)) a →
          Group.StartsAt ((test flag whenSet whenClear next).groups base) a := fun hstart =>
        hstart.mono fun _ hg => mem_groups_test.mpr (.inr (.inr (.inr (.inr hg))))
      have hset : ∀ {a : Nat}, Group.StartsAt (whenSet.groups (base + 8 + whenClear.size)) a →
          Group.StartsAt ((test flag whenSet whenClear next).groups base) a := fun hstart =>
        hstart.mono fun _ hg => mem_groups_test.mpr (.inr (.inr (.inr (.inl hg))))
      have hclear : ∀ {a : Nat}, Group.StartsAt (whenClear.groups (base + 5)) a →
          Group.StartsAt ((test flag whenSet whenClear next).groups base) a := fun hstart =>
        hstart.mono fun _ hg => mem_groups_test.mpr (.inr (.inl hg))
      -- what follows the test stands at its stop, unless nothing does
      have hstop : Group.StartsAt ((test flag whenSet whenClear next).groups base)
            (base + 8 + whenClear.size + whenSet.size) ∨
          base + 8 + whenClear.size + whenSet.size =
            base + 8 + whenClear.size + whenSet.size + next.size := by
        rcases next.startsAt_base (base + 8 + whenClear.size + whenSet.size) with hstart | hempty
        · exact .inl (hnext hstart)
        · exact .inr (by omega)
      rcases mem_spans_test.mp h with rfl | h | h | h
      · rcases ha with rfl | rfl
        · rcases whenSet.startsAt_base (base + 8 + whenClear.size) with hstart | hempty
          · exact .inl (hset hstart)
          · rw [hempty] at hstop ⊢
            exact hstop
        · exact hstop
      · rcases ihClear h with hstart | rfl
        · exact .inl (hclear hstart)
        · exact .inl ⟨_, mem_groups_test.mpr (.inr (.inr (.inl rfl))), List.cons_ne_nil _ _, rfl⟩
      · rcases ihSet h with hstart | rfl
        · exact .inl (hset hstart)
        · exact hstop
      · exact (ih h).imp_left hnext

end Plan

/-! ## Conditionals of a program -/

/-- `Conditional program i j s`: in the disassembly of the program, `i` is a test at the head of
the span that jumps to its turn, and `j` is the jump right before the turn, to the stop of the
span. -/
structure Conditional (program : Program) (i j : Instruction) (s : Span) : Prop where
  test_mem : i ∈ (disassemble program).instructions
  test : s.IsTest i
  jump_mem : j ∈ (disassemble program).instructions
  jump : s.IsJump j

namespace Conditional

variable {program : Program} {i i' j j' : Instruction} {s s' : Span}

/-- A test is the test of one conditional. -/
theorem unique (h : Conditional program i j s) (h' : Conditional program i j' s') :
    j = j' ∧ s = s' := by
  have hturn : s.turn = s'.turn := by
    have := h.test.targets.symm.trans h'.test.targets
    simpa only [Except.ok.injEq, List.cons.injEq, and_true] using this
  obtain rfl : j = j' := by
    refine eq_of_mem_disassembleFrom h.jump_mem h'.jump_mem ?_
    have := h.jump.address
    have := h'.jump.address
    omega
  have hstop : s.stop = s'.stop := by
    have := h.jump.targets.symm.trans h'.jump.targets
    simpa only [Except.ok.injEq, List.cons.injEq, and_true] using this
  exact ⟨rfl, Span.ext (h.test.address.symm.trans h'.test.address) hturn hstop⟩

/-- A jump is the jump of one conditional, if those of different tests are nested. -/
theorem eq_of_nested (h : Conditional program i j s) (h' : Conditional program i' j s')
    (hnested : i ≠ i' → s.Nested s') : i = i' := by
  apply Classical.byContradiction
  intro hne
  have hturn : s.turn = s'.turn := h.jump.address.symm.trans h'.jump.address
  have hstop : s.stop = s'.stop := by
    have := h.jump.targets.symm.trans h'.jump.targets
    simpa only [Except.ok.injEq, List.cons.injEq, and_true] using this
  have hcases := hnested hne
  simp only [Span.Nested, Span.Apart, Span.InClear, Span.InSet] at hcases
  have := s.forward
  have := s.ordered
  have := s'.forward
  omega

end Conditional

namespace Assembled

variable {scope : Scope} {script : Script} {program : Program} {plan : Plan}

theorem mem_disassemble (h : Assembled scope script program plan) {i : Instruction}
    (hi : i ∈ plan.located 0) : i ∈ (disassemble program).instructions := by
  rw [h.instructions_eq]
  exact List.mem_append_left _ hi

theorem covered_of_mem_disassemble (h : Assembled scope script program plan) {i : Instruction}
    (hi : i ∈ (disassemble program).instructions) : Span.Covered (plan.spans 0) i := by
  rw [h.instructions_eq, List.mem_append, List.mem_singleton] at hi
  rcases hi with hi | rfl
  · exact h.planned.covered_of_mem_located h.fits_drafts hi
  · exact ⟨fun hop => (by cases hop), fun hop => (by cases hop)⟩

theorem conditional_of_mem_spans (h : Assembled scope script program plan) {s : Span}
    (hs : s ∈ plan.spans 0) : ∃ i j, Conditional program i j s := by
  obtain ⟨⟨i, hi, htest⟩, j, hj, hjump⟩ := Plan.placed_of_mem_spans h.fits_drafts hs
  exact ⟨i, j, h.mem_disassemble hi, htest, h.mem_disassemble hj, hjump⟩

/-- Every test of a program is the test of a conditional. -/
theorem conditional_of_test (h : Assembled scope script program plan) {i : Instruction}
    (hi : i ∈ (disassemble program).instructions) (hop : i.opcode = .ifTrue) :
    ∃ j, ∃ s ∈ plan.spans 0, Conditional program i j s := by
  obtain ⟨s, hs, htest⟩ := (h.covered_of_mem_disassemble hi).1 hop
  obtain ⟨_, j, hj⟩ := h.conditional_of_mem_spans hs
  exact ⟨j, s, hs, hi, htest, hj.jump_mem, hj.jump⟩

/-- Every jump of a program is the jump of a conditional. -/
theorem conditional_of_jump (h : Assembled scope script program plan) {j : Instruction}
    (hj : j ∈ (disassemble program).instructions) (hop : j.opcode = .jump) :
    ∃ i s, Conditional program i j s := by
  obtain ⟨s, hs, hjump⟩ := (h.covered_of_mem_disassemble hj).2 hop
  obtain ⟨i, _, hi⟩ := h.conditional_of_mem_spans hs
  exact ⟨i, s, hi.test_mem, hi.test, hj, hjump⟩

/-- The conditionals of a program have the spans of its plan. -/
theorem mem_spans_of_conditional (h : Assembled scope script program plan)
    {i j : Instruction} {s : Span} (hc : Conditional program i j s) : s ∈ plan.spans 0 := by
  obtain ⟨_, found, hmem, hfound⟩ := h.conditional_of_test hc.test_mem hc.test.opcode
  rw [(hc.unique hfound).2]
  exact hmem

theorem nested_of_ne (h : Assembled scope script program plan) {i i' j j' : Instruction}
    {s s' : Span} (hc : Conditional program i j s) (hc' : Conditional program i' j' s')
    (hne : i ≠ i') : s.Nested s' := by
  have hspans : s ≠ s' := by
    rintro rfl
    exact hne (eq_of_mem_disassembleFrom hc.test_mem hc'.test_mem
      (hc.test.address.trans hc'.test.address.symm))
  exact (plan.pairwise_spans 0).forall (h.mem_spans_of_conditional hc)
    (h.mem_spans_of_conditional hc') hspans

theorem stop_lt_length (h : Assembled scope script program plan) {i j : Instruction} {s : Span}
    (hc : Conditional program i j s) : s.stop < program.length := by
  have hbounds := (Plan.bounds_of_mem_spans (h.mem_spans_of_conditional hc)).2
  have hlength := h.length
  omega

/-- Where a conditional turns or stops, a group starts. -/
theorem startsAt_of_conditional (h : Assembled scope script program plan)
    {i j : Instruction} {s : Span} (hc : Conditional program i j s) {address : Nat}
    (ha : address = s.turn ∨ address = s.stop) : Group.StartsAt plan.layout address := by
  have hstart := Plan.startsAt_of_mem_spans (h.mem_spans_of_conditional hc) ha
  rw [Nat.zero_add] at hstart
  rcases hstart with hstart | rfl
  · exact hstart.mono fun _ hg => List.mem_append_left _ hg
  · exact ⟨_, List.mem_append_right _ List.mem_cons_self, List.cons_ne_nil _ _, rfl⟩

/-- A jump that is jumped to belongs to a conditional around, of which this one ends the code
for a clear flag. -/
theorem inClear_of_jump_address (h : Assembled scope script program plan) {i i' j j' : Instruction}
    {s s' : Span} (hc : Conditional program i j s) (hc' : Conditional program i' j' s')
    (ha : j'.address = s.turn ∨ j'.address = s.stop) : s.InClear s' := by
  have hturn := hc'.jump.address
  have := s.forward
  have := s.ordered
  have := s'.forward
  have := s'.ordered
  have hne : i ≠ i' := by
    rintro rfl
    obtain ⟨-, rfl⟩ := hc.unique hc'
    omega
  have hcases := h.nested_of_ne hc hc' hne
  simp only [Span.Nested, Span.Apart, Span.InClear, Span.InSet] at hcases ⊢
  omega

end Assembled

/-- **Conditionals are properly nested.**  In the disassembly of a script's program, tests and
jumps are the two ends of conditionals, one of each to one of the other; a conditional runs
forward and stops within the program.  It turns and stops where the code of an event, the end,
or the jump of a conditional around it starts, and never within a group.  Any two conditionals
are apart or one is in a body of the other. -/
theorem Scope.conditionals_nested {scope : Scope} {script : Script} {program : Program}
    {state : Generator} (h : scope.generate script {} = .ok program state) :
    (∀ i ∈ (disassemble program).instructions, i.opcode = .ifTrue →
      ∃! j, ∃ s, Conditional program i j s) ∧
    (∀ j ∈ (disassemble program).instructions, j.opcode = .jump →
      ∃! i, ∃ s, Conditional program i j s) ∧
    (∀ i j s, Conditional program i j s → s.stop < program.length) ∧
    (∃ plan, Planned scope script plan ∧
      (disassemble program).instructions = plan.layout.flatMap Group.instructions ∧
      ∀ i j s, Conditional program i j s → ∀ a, a = s.turn ∨ a = s.stop →
        Group.StartsAt plan.layout a ∧ (∀ g ∈ plan.layout, ¬(g.address < a ∧ a < g.stop)) ∧
        ∀ i' j' s', Conditional program i' j' s' → j'.address = a → s.InClear s') ∧
    ∀ i j s i' j' s', Conditional program i j s → Conditional program i' j' s' → i ≠ i' →
      s.Nested s' := by
  obtain ⟨plan, hprogram, -⟩ := Scope.assembled_of_generate h
  have hgroups : (disassemble program).instructions = plan.layout.flatMap Group.instructions := by
    rw [hprogram.disassembly, plan.locate_whole_eq_layout]
  refine ⟨?_, ?_, fun i j s hc => hprogram.stop_lt_length hc,
    ⟨plan, hprogram.planned, hgroups, ?_⟩, ?_⟩
  · intro i hi hop
    obtain ⟨j, s, -, hc⟩ := hprogram.conditional_of_test hi hop
    exact ⟨j, ⟨s, hc⟩, fun j' ⟨s', hc'⟩ => (hc'.unique hc).1⟩
  · intro j hj hop
    obtain ⟨i, s, hc⟩ := hprogram.conditional_of_jump hj hop
    exact ⟨i, ⟨s, hc⟩, fun i' ⟨s', hc'⟩ => hc'.eq_of_nested hc (hprogram.nested_of_ne hc' hc)⟩
  · intro i j s hc a ha
    have hstart := hprogram.startsAt_of_conditional hc ha
    refine ⟨hstart, fun g hg => ?_, fun i' j' s' hc' haddress => ?_⟩
    · obtain ⟨first, hfirst, -, rfl⟩ := hstart
      exact plan.tiled_layout.not_within hfirst hg
    · rw [← haddress] at ha
      exact hprogram.inClear_of_jump_address hc hc' ha
  · intro i j s i' j' s' hc hc' hne
    exact hprogram.nested_of_ne hc hc' hne

/-- The nested script: the test at address 11 is in a body of the test at address 0. -/
theorem conditionals_nested_in_body :
    ∃ program state, nestedScope.generate nestedScript {} = .ok program state ∧
      ∃ i j s i' j' s', Conditional program i j s ∧ i.address = 0 ∧
        Conditional program i' j' s' ∧ i'.address = 11 ∧ s.Nested s' := by
  obtain ⟨program, state, h⟩ := generate_nested
  obtain ⟨plan, hprogram, -⟩ := Scope.assembled_of_generate h
  obtain rfl := hprogram.planned.unique planned_nested
  have hread := hprogram.disassembly
  obtain ⟨htests, -, -, -, hnested⟩ := Scope.conditionals_nested h
  obtain ⟨j, ⟨s, hc⟩, -⟩ := htests ⟨0, .ifTrue, [0, 1, 0, 11]⟩ (by rw [hread]; decide) rfl
  obtain ⟨j', ⟨s', hc'⟩, -⟩ := htests ⟨11, .ifTrue, [0, 0, 0, 20]⟩ (by rw [hread]; decide) rfl
  exact ⟨program, state, h, _, j, s, _, j', s', hc, rfl, hc', rfl,
    hnested _ _ _ _ _ _ hc hc' (by decide)⟩

end SceneScript
