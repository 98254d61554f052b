import Mathlib.Data.List.Basic
import SceneScript.Proofs.Isolation
import SceneScript.Proofs.Nesting
import SceneScript.Proofs.Relocation
import SceneScript.Proofs.Simulation

/-!
# The active actor is set on every path

Three instructions act on the actor that is active, and `ACTOR_SET_ACTIVE` makes one active.  A
script never says which actor is active: each event that needs one emits both instructions, the
second right behind the first.  In a program this could be undone in two ways, by code that
comes between the two and by a jump that lands between them.  Neither happens.

That nothing comes between is a property of the opcodes in a row, `Paired`, which holds of every
group of the layout and so of all groups together.  That no jump lands between rests on the
layout too: a target is where a group starts, and a group that starts with an instruction for
the active actor would not be paired.

A `Trace` is any way through a program that its jumps allow, whatever the flags are.  The runs
of the machine are among them.
-/

namespace SceneScript

/-! ## Pairs -/

/-- The opcodes that act on the active actor. -/
def Opcode.onActive : List Opcode := [.actorSetPosition, .actorSetDirection, .actorMoveTo]

/-- In this row of opcodes every `ACTOR_SET_ACTIVE` has an opcode for the active actor right
behind it, and every opcode for the active actor has an `ACTOR_SET_ACTIVE` right before it. -/
inductive Paired : List Opcode → Prop
  | nil : Paired []
  | other {op : Opcode} {rest : List Opcode} : op ≠ .actorSetActive → op ∉ Opcode.onActive →
      Paired rest → Paired (op :: rest)
  | pair {op : Opcode} {rest : List Opcode} : op ∈ Opcode.onActive → Paired rest →
      Paired (.actorSetActive :: op :: rest)

namespace Paired

theorem append {ops others : List Opcode} (h : Paired ops) (h' : Paired others) :
    Paired (ops ++ others) := by
  induction h with
  | nil => exact h'
  | other hset hactive _ ih => exact .other hset hactive ih
  | pair hactive _ ih => exact .pair hactive ih

theorem flatMap {α : Type} {items : List α} {f : α → List Opcode}
    (h : ∀ item ∈ items, Paired (f item)) : Paired (items.flatMap f) := by
  induction items with
  | nil => exact .nil
  | cons item rest ih =>
      obtain ⟨hitem, hrest⟩ := List.forall_mem_cons.mp h
      rw [List.flatMap_cons]
      exact hitem.append (ih hrest)

theorem of_forall {ops : List Opcode}
    (h : ∀ op ∈ ops, op ≠ .actorSetActive ∧ op ∉ Opcode.onActive) :
    Paired ops := by
  induction ops with
  | nil => exact .nil
  | cons op rest ih =>
      obtain ⟨⟨hset, hactive⟩, hrest⟩ := List.forall_mem_cons.mp h
      exact .other hset hactive (ih hrest)

theorem head {op : Opcode} {rest : List Opcode} (h : Paired (op :: rest)) :
    op ∉ Opcode.onActive := by
  cases h with
  | other _ hactive _ => exact hactive
  | pair _ _ => decide

/-- What stands right before an opcode for the active actor. -/
theorem before {ops front back : List Opcode} {op : Opcode} (h : Paired ops)
    (hops : ops = front ++ op :: back) (hop : op ∈ Opcode.onActive) :
    ∃ earlier, front = earlier ++ [.actorSetActive] := by
  induction h generalizing front with
  | nil => exact absurd hops.symm (List.append_ne_nil_of_right_ne_nil _ (List.cons_ne_nil _ _))
  | other _ hactive _ ih =>
      rcases List.cons_eq_append_iff.mp hops with ⟨-, hcons⟩ | ⟨front', rfl, hrest⟩
      · obtain ⟨rfl, -⟩ := List.cons.inj hcons
        exact absurd hop hactive
      · obtain ⟨earlier, rfl⟩ := ih hrest
        exact ⟨_ :: earlier, rfl⟩
  | pair _ _ ih =>
      rcases List.cons_eq_append_iff.mp hops with ⟨-, hcons⟩ | ⟨front', rfl, hrest⟩
      · obtain ⟨rfl, -⟩ := List.cons.inj hcons
        exact absurd hop (by decide)
      · rcases List.cons_eq_append_iff.mp hrest with ⟨rfl, -⟩ | ⟨front'', rfl, hbehind⟩
        · exact ⟨[], rfl⟩
        · obtain ⟨earlier, rfl⟩ := ih hbehind
          exact ⟨_ :: _ :: earlier, rfl⟩

/-- What stands right behind an `ACTOR_SET_ACTIVE`. -/
theorem behind {ops front back : List Opcode} (h : Paired ops)
    (hops : ops = front ++ .actorSetActive :: back) :
    ∃ op later, back = op :: later ∧ op ∈ Opcode.onActive := by
  induction h generalizing front with
  | nil => exact absurd hops.symm (List.append_ne_nil_of_right_ne_nil _ (List.cons_ne_nil _ _))
  | other hset _ _ ih =>
      rcases List.cons_eq_append_iff.mp hops with ⟨-, hcons⟩ | ⟨front', rfl, hrest⟩
      · obtain ⟨rfl, -⟩ := List.cons.inj hcons
        exact absurd rfl hset
      · exact ih hrest
  | pair hactive _ ih =>
      rcases List.cons_eq_append_iff.mp hops with ⟨-, hcons⟩ | ⟨front', rfl, hrest⟩
      · obtain ⟨-, rfl⟩ := List.cons.inj hcons
        exact ⟨_, _, rfl, hactive⟩
      · rcases List.cons_eq_append_iff.mp hrest with ⟨-, hcons⟩ | ⟨front'', rfl, hbehind⟩
        · obtain ⟨rfl, -⟩ := List.cons.inj hcons
          exact absurd hactive (by decide)
        · exact ih hbehind

end Paired

/-! ## Groups are paired -/

theorem Scope.paired_emitActiveActor (scope : Scope) {opcode : Opcode}
    (h : opcode ∈ Opcode.onActive) (args : Fields) (operands : List Value) :
    Paired ((scope.emitActiveActor opcode args operands).drafts.map Draft.opcode) :=
  .pair h .nil

/-- Three kinds of events act on the active actor; no other kind has anything to do with it. -/
theorem Scope.paired_emit {scope : Scope} {kind : EventKind} {args : Fields} {e : Emission}
    (h : scope.emit kind args = .ok e) : Paired (e.drafts.map Draft.opcode) := by
  have hapart : (∀ op ∈ kind.opcodes, op ≠ .actorSetActive ∧ op ∉ Opcode.onActive) →
      Paired (e.drafts.map Draft.opcode) := by
    intro hkind
    apply Paired.of_forall
    intro op hop
    obtain ⟨d, hd, rfl⟩ := List.mem_map.mp hop
    exact hkind _ (Scope.within_emit h d hd).1
  obtain ⟨r, hr, hdrafts, -⟩ := Scope.emit_ok.mp h
  cases kind
  case actorSetPosition | actorSetDirection | actorMoveTo =>
      cases hr
      rw [hdrafts]
      exact scope.paired_emitActiveActor (by decide) args _
  all_goals exact hapart (by decide)

/-- The opcodes of a group. -/
def Group.opcodes (g : Group) : List Opcode := g.drafts.map Draft.opcode

theorem Planned.paired_groups {scope : Scope} {script : Script} {plan : Plan}
    (h : Planned scope script plan) (base : Nat) : ∀ g ∈ plan.groups base, Paired g.opcodes := by
  induction h generalizing base with
  | nil => exact fun _ hg => absurd hg List.not_mem_nil
  | leaf _ hemit _ ih => exact List.forall_mem_cons.mpr ⟨Scope.paired_emit hemit, ih _⟩
  | test _ _ _ _ _ ihSet ihClear ih =>
      intro g hg
      rcases Plan.mem_groups_test.mp hg with rfl | hg | rfl | hg | hg
      · show Paired [.ifTrue]
        exact .other (by decide) (by decide) .nil
      · exact ihClear _ g hg
      · show Paired [.jump]
        exact .other (by decide) (by decide) .nil
      · exact ihSet _ g hg
      · exact ih _ g hg

/-! ## Neighbours in a program -/

/-- Instructions without a gap: the second of two neighbours stands where the first ends. -/
theorem Tiles.address_eq_next {start stop : Nat} {front back : List Instruction} {i j : Instruction}
    (h : Tiles start (front ++ i :: j :: back) stop) : j.address = i.next := by
  induction front generalizing start with
  | nil =>
      obtain ⟨rfl, hj, -⟩ := h
      exact hj
  | cons first rest ih => exact ih h.2

namespace Assembled

variable {scope : Scope} {script : Script} {program : Program} {plan : Plan}

theorem instructions_eq_layout (h : Assembled scope script program plan) :
    (disassemble program).instructions = plan.layout.flatMap Group.instructions := by
  rw [h.disassembly, plan.locate_whole_eq_layout]

theorem tiles (h : Assembled scope script program plan) :
    Tiles 0 (disassemble program).instructions (0 + (plan.whole.flatMap Draft.slots).length) := by
  rw [h.disassembly]
  exact tiles_locate h.fits 0

theorem paired_layout (h : Assembled scope script program plan) :
    ∀ g ∈ plan.layout, Paired g.opcodes := by
  rw [Plan.layout, List.forall_mem_append, List.forall_mem_singleton]
  exact ⟨h.planned.paired_groups 0, .other (by decide) (by decide) .nil⟩

theorem paired (h : Assembled scope script program plan) :
    Paired ((disassemble program).instructions.map Instruction.opcode) := by
  have hopcodes : ∀ g : Group, g.instructions.map Instruction.opcode = g.opcodes := fun g =>
    map_opcode_locate g.address g.drafts
  rw [h.instructions_eq_layout, List.map_flatMap]
  simp only [hopcodes]
  exact .flatMap h.paired_layout

/-- Of two neighbours the second stands where the first ends. -/
theorem address_eq_next (h : Assembled scope script program plan) {front back : List Instruction}
    {i j : Instruction} (hsplit : (disassemble program).instructions = front ++ i :: j :: back) :
    j.address = i.next := by
  have htiles := h.tiles
  rw [hsplit] at htiles
  exact htiles.address_eq_next

/-- An instruction for the active actor has the one that sets it as its neighbour. -/
theorem set_before (h : Assembled scope script program plan) {front back : List Instruction}
    {i : Instruction} (hsplit : (disassemble program).instructions = front ++ i :: back)
    (hop : i.opcode ∈ Opcode.onActive) :
    ∃ earlier a, front = earlier ++ [a] ∧ a.opcode = .actorSetActive ∧ i.address = a.next := by
  have hopcodes : (disassemble program).instructions.map Instruction.opcode =
      front.map Instruction.opcode ++ i.opcode :: back.map Instruction.opcode := by
    rw [hsplit, List.map_append, List.map_cons]
  obtain ⟨_, hfront⟩ := h.paired.before hopcodes hop
  obtain ⟨earlier, last, rfl, -, hlast⟩ := List.map_eq_append_iff.mp hfront
  obtain ⟨a, ha, hset⟩ := List.map_eq_singleton_iff.mp hlast
  subst ha
  rw [List.append_assoc] at hsplit
  exact ⟨earlier, a, rfl, hset, h.address_eq_next hsplit⟩

/-- An instruction that sets the active actor has one that acts on it as its neighbour. -/
theorem active_behind (h : Assembled scope script program plan) {front back : List Instruction}
    {a : Instruction} (hsplit : (disassemble program).instructions = front ++ a :: back)
    (hset : a.opcode = .actorSetActive) :
    ∃ i later, back = i :: later ∧ i.opcode ∈ Opcode.onActive ∧ i.address = a.next := by
  have hopcodes : (disassemble program).instructions.map Instruction.opcode =
      front.map Instruction.opcode ++ .actorSetActive :: back.map Instruction.opcode := by
    rw [hsplit, List.map_append, List.map_cons, hset]
  obtain ⟨op, _, hback, hop⟩ := h.paired.behind hopcodes
  obtain ⟨i, later, rfl, rfl, -⟩ := List.map_eq_cons_iff.mp hback
  exact ⟨i, later, rfl, hop, h.address_eq_next hsplit⟩

/-! ## Targets -/

/-- Whatever an instruction aims at is where a group starts. -/
theorem startsAt_of_aimsAt (h : Assembled scope script program plan) {i : Instruction}
    (hi : i ∈ (disassemble program).instructions) {address : Nat} (haims : i.AimsAt address) :
    Group.StartsAt plan.layout address := by
  by_cases htest : i.opcode = .ifTrue
  · obtain ⟨j, s, -, hc⟩ := h.conditional_of_test hi htest
    exact h.startsAt_of_conditional hc (.inl ((Instruction.aimsAt_iff hc.test.targets).mp haims))
  by_cases hjump : i.opcode = .jump
  · obtain ⟨_, s, hc⟩ := h.conditional_of_jump hi hjump
    exact h.startsAt_of_conditional hc (.inr ((Instruction.aimsAt_iff hc.jump.targets).mp haims))
  exact absurd haims (Instruction.not_aimsAt (Opcode.addressOffsets_eq_nil htest hjump) address)

/-- Where a group starts there is an instruction, and it is none for the active actor. -/
theorem instruction_of_startsAt (h : Assembled scope script program plan) {address : Nat}
    (hstart : Group.StartsAt plan.layout address) :
    ∃ i ∈ (disassemble program).instructions, i.address = address ∧ i.opcode ∉ Opcode.onActive := by
  obtain ⟨⟨address, drafts⟩, hg, hdrafts, rfl⟩ := hstart
  cases drafts with
  | nil => exact absurd rfl hdrafts
  | cons d rest =>
      refine ⟨d.located address, ?_, rfl, (h.paired_layout _ hg).head⟩
      rw [h.instructions_eq_layout]
      exact List.mem_flatMap.mpr ⟨_, hg, List.mem_cons_self⟩

/-- No instruction for the active actor is aimed at. -/
theorem not_onActive_of_aimsAt (h : Assembled scope script program plan) {i j : Instruction}
    (hi : i ∈ (disassemble program).instructions) (hj : j ∈ (disassemble program).instructions)
    (haims : i.AimsAt j.address) : j.opcode ∉ Opcode.onActive := by
  obtain ⟨first, hfirst, haddress, hop⟩ := h.instruction_of_startsAt (h.startsAt_of_aimsAt hi haims)
  rw [← eq_of_mem_disassembleFrom hfirst hj haddress]
  exact hop

end Assembled

/-! ## Traces -/

/-- Control may pass from one instruction to another: from one that neither halts nor always
jumps to what stands behind it, and from one that jumps to what it aims at. -/
inductive Instruction.PassesTo (i j : Instruction) : Prop
  | falls : i.opcode ≠ .halt → i.opcode ≠ .jump → j.address = i.next → PassesTo i j
  | jumps : i.AimsAt j.address → PassesTo i j

/-- `Trace instructions executed`: beginning with the one at address 0, the instructions can be
executed in this order.  The one executed last comes first. -/
inductive Trace (instructions : List Instruction) : List Instruction → Prop
  | start {i : Instruction} : i ∈ instructions → i.address = 0 → Trace instructions [i]
  | step {i j : Instruction} {done : List Instruction} : Trace instructions (i :: done) →
      j ∈ instructions → i.PassesTo j → Trace instructions (j :: i :: done)

theorem Trace.mem {instructions done : List Instruction} {i : Instruction}
    (h : Trace instructions (i :: done)) : i ∈ instructions := by
  cases h with
  | start hi _ => exact hi
  | step _ hi _ => exact hi

namespace Assembled

variable {scope : Scope} {script : Script} {program : Program} {plan : Plan}

/-- Behind an instruction that does not halt there is another. -/
theorem exists_next (h : Assembled scope script program plan) {i : Instruction}
    (hi : i ∈ (disassemble program).instructions) (hop : i.opcode ≠ .halt) :
    ∃ front j later, (disassemble program).instructions = front ++ i :: j :: later ∧
      j.address = i.next := by
  obtain ⟨front, back, hsplit⟩ := List.append_of_mem hi
  cases back with
  | nil =>
      have hlast := h.instructions_eq.symm.trans hsplit
      obtain ⟨-, hi⟩ := List.append_inj' hlast rfl
      obtain ⟨rfl, -⟩ := List.cons.inj hi
      exact absurd rfl hop
  | cons j later => exact ⟨front, j, later, hsplit, h.address_eq_next hsplit⟩

theorem mem_of_split {front back : List Instruction} {i j : Instruction}
    (hsplit : (disassemble program).instructions = front ++ i :: j :: back) :
    j ∈ (disassemble program).instructions := by
  rw [hsplit]
  exact List.mem_append_right _ (List.mem_cons_of_mem _ List.mem_cons_self)

/-- Control reaches an instruction for the active actor from its neighbour only. -/
theorem set_of_passesTo (h : Assembled scope script program plan) {i j : Instruction}
    (hi : i ∈ (disassemble program).instructions) (hj : j ∈ (disassemble program).instructions)
    (hpass : i.PassesTo j) (hop : j.opcode ∈ Opcode.onActive) :
    i.opcode = .actorSetActive ∧ j.address = i.next := by
  cases hpass with
  | jumps haims => exact absurd hop (h.not_onActive_of_aimsAt hi hj haims)
  | falls hhalt _ haddress =>
      obtain ⟨front, k, later, hsplit, hk⟩ := h.exists_next hi hhalt
      obtain rfl := eq_of_mem_disassembleFrom hj (mem_of_split hsplit) (haddress.trans hk.symm)
      rw [List.append_cons] at hsplit
      obtain ⟨earlier, a, hfront, hset, -⟩ := h.set_before hsplit hop
      obtain ⟨-, ha⟩ := List.append_inj' hfront rfl
      obtain ⟨rfl, -⟩ := List.cons.inj ha
      exact ⟨hset, haddress⟩

/-- Along a trace, an instruction for the active actor comes right after the one that sets it. -/
theorem set_of_trace (h : Assembled scope script program plan) {i : Instruction}
    {done : List Instruction} (htrace : Trace (disassemble program).instructions (i :: done))
    (hop : i.opcode ∈ Opcode.onActive) :
    ∃ a earlier, done = a :: earlier ∧ a.opcode = .actorSetActive ∧ i.address = a.next := by
  cases htrace with
  | start hi haddress =>
      obtain ⟨front, back, hsplit⟩ := List.append_of_mem hi
      obtain ⟨earlier, a, rfl, -, hnext⟩ := h.set_before hsplit hop
      rw [haddress, Instruction.next, Instruction.size] at hnext
      omega
  | step htrace hi hpass =>
      obtain ⟨hset, hnext⟩ := h.set_of_passesTo htrace.mem hi hpass hop
      exact ⟨_, _, rfl, hset, hnext⟩

end Assembled

/-! ## Runs are traces -/

/-- A machine moves where control may pass: it falls through, or it jumps. -/
theorem Instruction.position_of_execute {i : Instruction}
    (harity : i.operands.length = i.opcode.operandCount) {w : World} {m : Machine}
    (h : i.execute w = .moved m) :
    (i.opcode ≠ .halt ∧ i.opcode ≠ .jump ∧ m.position = i.next) ∨ i.AimsAt m.position := by
  obtain ⟨address, opcode, operands⟩ := i
  by_cases hhalt : opcode = .halt
  · subst hhalt
    cases h
  by_cases hjump : opcode = .jump
  · subst hjump
    obtain ⟨high, low, rfl⟩ := List.length_eq_two.mp harity
    cases h
    exact .inr ⟨_, Opcode.targets_jump high low, List.mem_singleton.mpr rfl⟩
  by_cases htest : opcode = .ifTrue
  · subst htest
    obtain ⟨flagHigh, flagLow, high, low, rfl⟩ := List.length_eq_four.mp harity
    cases h
    by_cases hflag : w.flags (joined flagHigh flagLow)
    · refine .inr ⟨_, Opcode.targets_ifTrue flagHigh flagLow high low, ?_⟩
      simp only [hflag, if_true]
      exact List.mem_singleton.mpr rfl
    · exact .inl ⟨hhalt, hjump, if_neg hflag⟩
  refine .inl ⟨hhalt, hjump, ?_⟩
  by_cases hwrite : opcode = .setTrue ∨ opcode = .setFalse
  · rcases hwrite with rfl | rfl
    all_goals
      obtain ⟨high, low, rfl⟩ := List.length_eq_two.mp harity
      cases h
      rfl
  obtain ⟨hset, hclear⟩ := not_or.mp hwrite
  have hcontrol : opcode ∉ Opcode.controls := by
    simp only [Opcode.controls, List.mem_cons, List.not_mem_nil, or_false, not_or]
    exact ⟨hhalt, hjump, htest, hset, hclear⟩
  rw [execute_recorded hcontrol] at h
  cases h
  rfl

namespace Assembled

variable {scope : Scope} {script : Script} {program : Program} {plan : Plan}

/-- Where a machine moves there is an instruction, and control may pass to it. -/
theorem passesTo_of_execute (h : Assembled scope script program plan) {i : Instruction}
    (hi : i ∈ (disassemble program).instructions) {w : World} {m : Machine}
    (hmoved : i.execute w = .moved m) :
    ∃ j ∈ (disassemble program).instructions, j.address = m.position ∧ i.PassesTo j := by
  rcases Instruction.position_of_execute (arity_of_mem_disassembleFrom hi) hmoved with
    ⟨hhalt, hjump, hposition⟩ | haims
  · obtain ⟨front, j, later, hsplit, hj⟩ := h.exists_next hi hhalt
    exact ⟨j, mem_of_split hsplit, hj.trans hposition.symm, .falls hhalt hjump hj⟩
  · obtain ⟨j, hj, haddress, -⟩ := h.instruction_of_startsAt (h.startsAt_of_aimsAt hi haims)
    rw [← haddress] at haims
    exact ⟨j, hj, haddress, .jumps haims⟩

theorem exists_first (h : Assembled scope script program plan) :
    ∃ i ∈ (disassemble program).instructions, i.address = 0 := by
  have htiles := h.tiles
  cases hall : (disassemble program).instructions with
  | nil =>
      rw [h.instructions_eq] at hall
      exact absurd hall (List.append_ne_nil_of_right_ne_nil _ (List.cons_ne_nil _ _))
  | cons i rest =>
      rw [hall] at htiles
      exact ⟨i, List.mem_cons_self, htiles.1⟩

end Assembled

/-- The machine is at this instruction of the program. -/
def Machine.IsAt (m : Machine) (program : Program) (i : Instruction) : Prop :=
  i ∈ (disassemble program).instructions ∧ i.address = m.position

theorem Machine.IsAt.fetch_eq {m : Machine} {program : Program} {i : Instruction}
    (h : m.IsAt program i) : fetch program m.position = some i := by
  obtain ⟨hi, hposition⟩ := h
  rw [← hposition]
  exact fetch_of_mem_disassembleFrom List.drop_zero.symm hi

theorem Machine.IsAt.step_eq {m : Machine} {program : Program} {i : Instruction}
    (h : m.IsAt program i) : step program m = i.execute m.world := by
  simp only [step, h.fetch_eq]

/-- The last step of a run. -/
theorem Runs.last_step {program : Program} {m m' : Machine} (h : Runs program m m') :
    m = m' ∨ ∃ last, Runs program m last ∧ SceneScript.step program last = .moved m' := by
  induction h with
  | refl => exact .inl rfl
  | step hstep _ ih =>
      rcases ih with rfl | ⟨last, hruns, hlast⟩
      · exact .inr ⟨_, .refl _, hstep⟩
      · exact .inr ⟨last, .step hstep hruns, hlast⟩

namespace Assembled

variable {scope : Scope} {script : Script} {program : Program} {plan : Plan}

/-- One step takes the machine from an instruction to one to which control may pass. -/
theorem passesTo_of_step (h : Assembled scope script program plan) {m m' : Machine}
    {i : Instruction} (hi : m.IsAt program i) (hstep : step program m = .moved m') :
    ∃ j, m'.IsAt program j ∧ i.PassesTo j := by
  rw [hi.step_eq] at hstep
  obtain ⟨j, hj, hposition, hpass⟩ := h.passesTo_of_execute hi.1 hstep
  exact ⟨j, ⟨hj, hposition⟩, hpass⟩

/-- A run keeps the machine on instructions of the program. -/
theorem isAt_of_runs (h : Assembled scope script program plan) {m m' : Machine}
    (hruns : Runs program m m') (hm : ∃ i, m.IsAt program i) : ∃ i, m'.IsAt program i := by
  induction hruns with
  | refl => exact hm
  | step hstep _ ih =>
      obtain ⟨i, hi⟩ := hm
      obtain ⟨j, hj, -⟩ := h.passesTo_of_step hi hstep
      exact ih ⟨j, hj⟩

/-- A machine that has come to an instruction for the active actor has just set it. -/
theorem set_of_runs (h : Assembled scope script program plan) {w : World} {m : Machine}
    (hruns : Runs program ⟨0, w⟩ m) {i : Instruction} (hfetch : fetch program m.position = some i)
    (hop : i.opcode ∈ Opcode.onActive) :
    ∃ last a, Runs program ⟨0, w⟩ last ∧ step program last = .moved m ∧
      fetch program last.position = some a ∧ a.opcode = .actorSetActive ∧ i.address = a.next := by
  obtain ⟨first, hfirst, hzero⟩ := h.exists_first
  have hstart : (⟨0, w⟩ : Machine).IsAt program first := ⟨hfirst, hzero⟩
  rcases hruns.last_step with rfl | ⟨last, hlast, hstep⟩
  · -- the first instruction is none for the active actor
    obtain rfl : first = i := Option.some.inj (hstart.fetch_eq.symm.trans hfetch)
    obtain ⟨_, _, hdone, -⟩ := h.set_of_trace (.start hfirst hzero) hop
    cases hdone
  · obtain ⟨a, ha⟩ := h.isAt_of_runs hlast ⟨first, hstart⟩
    obtain ⟨j, hj, hpass⟩ := h.passesTo_of_step ha hstep
    obtain rfl : j = i := Option.some.inj (hj.fetch_eq.symm.trans hfetch)
    obtain ⟨hset, hnext⟩ := h.set_of_passesTo ha.1 hj.1 hpass hop
    exact ⟨last, a, hlast, hstep, ha.fetch_eq, hset, hnext⟩

end Assembled

/-- **The active actor is set on every path.**  In the program of a job, every instruction for
the active actor stands right behind an `ACTOR_SET_ACTIVE`, every `ACTOR_SET_ACTIVE` stands
right before an instruction for the active actor, and no target of a jump or a test is the
address of an instruction for the active actor.  So on every trace, whichever way its tests go,
and on every run of the machine, what was executed last before such an instruction is the
`ACTOR_SET_ACTIVE` that stands right before it. -/
theorem Job.active_actor_always_set {job : Job} {session after : Session} {program : Program}
    (h : job.run session = .ok program after) :
    (∀ front i back, (disassemble program).instructions = front ++ i :: back →
      i.opcode ∈ Opcode.onActive →
      ∃ earlier a, front = earlier ++ [a] ∧ a.opcode = .actorSetActive ∧ i.address = a.next) ∧
    (∀ front a back, (disassemble program).instructions = front ++ a :: back →
      a.opcode = .actorSetActive →
      ∃ i later, back = i :: later ∧ i.opcode ∈ Opcode.onActive ∧ i.address = a.next) ∧
    (∀ i ∈ (disassemble program).instructions, ∃ targets, i.targets = .ok targets ∧
      ∀ j ∈ (disassemble program).instructions, j.address ∈ targets → j.opcode ∉ Opcode.onActive) ∧
    (∀ i done, Trace (disassemble program).instructions (i :: done) → i.opcode ∈ Opcode.onActive →
      ∃ a earlier, done = a :: earlier ∧ a.opcode = .actorSetActive ∧ i.address = a.next) ∧
    ∀ flags m i, Runs program ⟨0, .initial flags⟩ m → fetch program m.position = some i →
      i.opcode ∈ Opcode.onActive →
      ∃ last a, Runs program ⟨0, .initial flags⟩ last ∧ step program last = .moved m ∧
        fetch program last.position = some a ∧ a.opcode = .actorSetActive ∧ i.address = a.next := by
  obtain ⟨script, symbols, scope, state, -, -, hgenerate⟩ := Job.alone_ok (Session.alone_of_run h)
  obtain ⟨plan, hprogram, -⟩ := Scope.assembled_of_generate hgenerate
  refine ⟨?_, ?_, ?_, ?_, ?_⟩
  · intro front i back hsplit hop
    exact hprogram.set_before hsplit hop
  · intro front a back hsplit hset
    exact hprogram.active_behind hsplit hset
  · intro i hi
    obtain ⟨targets, htargets⟩ := Instruction.targets_ok (arity_of_mem_disassembleFrom hi)
    refine ⟨targets, htargets, ?_⟩
    intro j hj hmem
    exact hprogram.not_onActive_of_aimsAt hi hj ⟨targets, htargets, hmem⟩
  · intro i done htrace hop
    exact hprogram.set_of_trace htrace hop
  · intro flags m i hruns hfetch hop
    exact hprogram.set_of_runs hruns hfetch hop

/-! ## A guard in a town -/

/-- If the door is set the guard turns, else they move; then they are put somewhere. -/
def guardJob : Job :=
  .events
    [.whenSet (.str "door") [.plain .actorSetDirection [(.str "actorId", .str "guard")]]
        [.plain .actorMoveTo [(.str "actorId", .str "guard")]],
      .plain .actorSetPosition [(.str "actorId", .str "guard")]]
    { flags := [.str "door"], actors := [(.str "town", [.str "guard"])] }

/-- The program of the guard in the town. -/
def guardProgram : Program :=
  [3, 0, 0, 0, 13, 8, 1, 16, 0, 0, 2, 0, 17, 8, 1, 7, 0, 8, 1, 15, 0, 0, 0]

/-- With the door clear, the machine comes to the move at address 7 from an `ACTOR_SET_ACTIVE`. -/
theorem active_actor_always_set_guard :
    ∃ after, guardJob.run { scene := .str "town" } = .ok guardProgram after ∧
      ∃ w last a, Runs guardProgram ⟨0, .initial fun _ => false⟩ last ∧
        step guardProgram last = .moved ⟨7, w⟩ ∧ fetch guardProgram last.position = some a ∧
        a.opcode = .actorSetActive := by
  obtain ⟨after, h⟩ : ∃ after, guardJob.run { scene := .str "town" } = .ok guardProgram after :=
    Session.run_of_alone rfl
  obtain ⟨w, hruns⟩ : ∃ w, Runs guardProgram ⟨0, .initial fun _ => false⟩ ⟨7, w⟩ :=
    ⟨_, .step rfl (.step rfl (.refl _))⟩
  obtain ⟨-, -, -, -, hset⟩ := Job.active_actor_always_set h
  obtain ⟨last, a, hlast, hstep, hfetch, hop, -⟩ :=
    hset _ _ ⟨7, .actorMoveTo, [0, 0]⟩ hruns rfl (by decide)
  exact ⟨after, h, w, last, a, hlast, hstep, hfetch, hop⟩

end SceneScript
