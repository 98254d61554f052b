import SceneScript.Proofs.Attachment
import SceneScript.Proofs.Disassembly
import SceneScript.Proofs.Runtime

/-!
# A program does what its script does

Run from its first byte, with any flags, the program of a script halts, and the world is then
what a walk over the script makes of it.

The proof follows the walk.  `Follows program walk start stop` says of a stretch of code that
the machine, put at its start, does what the walk does: it reaches the stop in the same world,
or halts in it if the walk was stopped.  The stretches of an event, of a test and of events in a
row are put together from it, and the only thing that is asked of the program is that the
instructions of the stretch can be fetched.
-/

namespace SceneScript

/-! ## Fetching -/

/-- What disassembly has read can be fetched. -/
theorem fetch_of_mem_disassembleFrom {program : Program} {address : Nat} {bytes : List UInt8}
    {i : Instruction} (hbytes : bytes = program.drop address)
    (h : i ∈ (disassembleFrom address bytes).instructions) : fetch program i.address = some i := by
  fun_induction disassembleFrom address bytes with
  | case1 => exact absurd h List.not_mem_nil
  | case2 => exact absurd h List.not_mem_nil
  | case3 => exact absurd h List.not_mem_nil
  | case4 address byte rest opcode hop hlong after ih =>
      rcases List.mem_cons.mp h with rfl | h
      · simp only [fetch, ← hbytes, hop, if_neg hlong]
      · refine ih ?_ h
        rw [← List.drop_drop, ← hbytes, Opcode.size, Nat.add_comm, List.drop_succ_cons]

/-- The instructions can be fetched from a program, each at its address. -/
def Loaded (program : Program) (instructions : List Instruction) : Prop :=
  ∀ i ∈ instructions, fetch program i.address = some i

theorem step_of_fetch {program : Program} {i : Instruction} (h : fetch program i.address = some i)
    (w : World) : step program ⟨i.address, w⟩ = i.execute w := by
  simp only [step, h]

/-! ## Executing -/

theorem Draft.execute_jump {target : Nat} (h : target ≤ 0xffff) (address : Nat) (w : World) :
    (Draft.located ⟨.jump, Operand.word target⟩ address).execute w = .moved ⟨target, w⟩ := by
  obtain ⟨high, low, hbytes, rfl⟩ := Operand.bytes_word h
  rw [Draft.located, Draft.operandBytes, hbytes]
  rfl

theorem Draft.execute_ifTrue {flag target : Nat} (hflag : flag ≤ 0xffff) (h : target ≤ 0xffff)
    (address : Nat) (w : World) :
    (Draft.located ⟨.ifTrue, Operand.word flag ++ Operand.word target⟩ address).execute w =
      .moved ⟨if w.flags flag then target else address + 5, w⟩ := by
  obtain ⟨flagHigh, flagLow, hflagBytes, rfl⟩ := Operand.bytes_word hflag
  obtain ⟨high, low, hbytes, rfl⟩ := Operand.bytes_word h
  rw [Draft.located, Draft.operandBytes, List.filterMap_append, hflagBytes, hbytes]
  rfl

theorem Draft.execute_write {index : Nat} (h : index ≤ 0xffff) (value : Bool)
    (address : Nat) (w : World) :
    (Draft.located ⟨if value then .setTrue else .setFalse, Operand.word index⟩ address).execute w =
      .moved ⟨address + 3, w.write index value⟩ := by
  obtain ⟨high, low, hbytes, rfl⟩ := Operand.bytes_word h
  rw [Draft.located, Draft.operandBytes, hbytes]
  cases value <;> rfl

/-- The opcodes that a machine acts on itself. -/
def Opcode.controls : List Opcode := [.halt, .jump, .ifTrue, .setTrue, .setFalse]

theorem Instruction.execute_recorded {i : Instruction} (h : i.opcode ∉ Opcode.controls)
    (w : World) : i.execute w = .moved ⟨i.next, w.record [⟨i.opcode, i.operands⟩]⟩ := by
  obtain ⟨address, opcode, operands⟩ := i
  cases opcode
  case halt | jump | ifTrue | setTrue | setFalse => exact absurd (by simp [Opcode.controls]) h
  all_goals rfl

/-- All other events emit nothing that a machine acts on. -/
theorem EventKind.not_mem_controls {kind : EventKind} (hstop : kind ≠ .stop)
    (hset : kind ≠ .setTrue) (hclear : kind ≠ .setFalse) :
    ∀ opcode ∈ kind.opcodes, opcode ∉ Opcode.controls := by
  cases kind
  case stop => exact absurd rfl hstop
  case setTrue => exact absurd rfl hset
  case setFalse => exact absurd rfl hclear
  all_goals decide

theorem Value.mapM_byte? {values : List Value} (h : ∀ v ∈ values, v.byte?.isSome) :
    values.mapM Value.byte? = some (values.filterMap Value.byte?) := by
  induction values with
  | nil => rfl
  | cons v rest ih =>
      obtain ⟨hv, hrest⟩ := List.forall_mem_cons.mp h
      obtain ⟨b, hb⟩ := Option.isSome_iff_exists.mp hv
      rw [List.mapM_cons, hb, ih hrest, List.filterMap_cons_some hb]
      rfl

theorem Draft.command?_of_fits {d : Draft} (h : d.Fits) :
    d.command? = some ⟨d.opcode, d.operandBytes⟩ := by
  rw [Draft.command?, Value.mapM_byte? h]
  rfl

/-- Drafts that are recorded are executed one after the other. -/
theorem runs_recorded {program : Program} {drafts : List Draft}
    (hrecorded : ∀ d ∈ drafts, d.opcode ∉ Opcode.controls) (hfits : ∀ d ∈ drafts, d.Fits)
    {address : Nat} (hloaded : Loaded program (locate address drafts)) (w : World) :
    ∃ commands, drafts.mapM Draft.command? = some commands ∧
      Runs program ⟨address, w⟩
        ⟨address + (drafts.flatMap Draft.slots).length, w.record commands⟩ := by
  induction drafts generalizing address w with
  | nil =>
      refine ⟨[], rfl, ?_⟩
      rw [w.record_nil]
      exact .refl _
  | cons d rest ih =>
      obtain ⟨hop, hrecorded⟩ := List.forall_mem_cons.mp hrecorded
      obtain ⟨hfit, hfits⟩ := List.forall_mem_cons.mp hfits
      obtain ⟨hfetch, hloaded⟩ := List.forall_mem_cons.mp hloaded
      let command : Command := ⟨d.opcode, d.operandBytes⟩
      obtain ⟨commands, hcommands, hruns⟩ := ih hrecorded hfits hloaded (w.record [command])
      have hstep : step program ⟨address, w⟩ =
          .moved ⟨address + d.slots.length, w.record [command]⟩ := by
        refine (step_of_fetch hfetch w).trans ?_
        rw [Instruction.execute_recorded hop, Instruction.next, Draft.size_located hfit]
        rfl
      refine ⟨command :: commands, ?_, .step hstep ?_⟩
      · rw [List.mapM_cons, Draft.command?_of_fits hfit, hcommands]
        rfl
      · rw [List.flatMap_cons, List.length_append, ← Nat.add_assoc]
        rw [World.record_record] at hruns
        exact hruns

/-! ## Following a walk -/

theorem Scope.flag?_of_ok {scope : Scope} {args : Fields} {flag : Nat}
    (h : Symbols.flagIndex scope.symbols.flags (args.get "flag") = .ok flag) :
    scope.flag? args = some flag := by
  rw [Scope.flag?, h]
  rfl

/-- The machine gets to the end of a walk: to an address, or to a halt if the walk was stopped. -/
def Reaches (program : Program) (m : Machine) (stop : Nat) : Walked → Prop
  | .on w => Runs program m ⟨stop, w⟩
  | .stopped w => Halts program m w

theorem Reaches.of_runs {program : Program} {m m' : Machine} {stop : Nat} {r : Walked}
    (h : Runs program m m') (h' : Reaches program m' stop r) : Reaches program m stop r := by
  cases r with
  | on w => exact h.trans h'
  | stopped w => exact Halts.of_runs h h'

/-- `Follows program walk start stop`: in every world, the code between the two addresses does
what the walk does. -/
def Follows (program : Program) (walk : World → Option Walked) (start stop : Nat) : Prop :=
  ∀ w, ∃ r, walk w = some r ∧ Reaches program ⟨start, w⟩ stop r

namespace Follows

variable {program : Program} {scope : Scope}

/-- Events in a row. -/
theorem cons {event : Event} {rest : Script} {start middle stop : Nat}
    (hevent : Follows program (scope.walkEvent event) start middle)
    (hrest : Follows program (scope.walkEvents rest) middle stop) :
    Follows program (scope.walkEvents (event :: rest)) start stop := by
  intro w
  obtain ⟨r, hwalk, hreach⟩ := hevent w
  rw [Scope.walkEvents, hwalk]
  cases r with
  | on w' =>
      obtain ⟨r', hwalk', hreach'⟩ := hrest w'
      exact ⟨r', hwalk', .of_runs hreach hreach'⟩
  | stopped w' => exact ⟨.stopped w', rfl, hreach⟩

/-- A stop ends the walk, and the program. -/
theorem stop {args : Fields} {base : Nat}
    (hloaded : Loaded program (locate base (Emission.single .halt).drafts)) :
    Follows program (scope.walkLeaf .stop args) base (base + 1) := by
  intro w
  have hfetch := hloaded _ List.mem_cons_self
  exact ⟨.stopped w, rfl, ⟨base, w⟩, .refl _, step_of_fetch hfetch w⟩

/-- A write to a flag. -/
theorem write {value : Bool} {args : Fields} {emission : Emission}
    (hemit : (scope.emitFlag (if value then .setTrue else .setFalse) args >>= Recipe.emission) =
      .ok emission)
    (hfits : ∀ d ∈ emission.drafts, d.Fits) {base : Nat}
    (hloaded : Loaded program (locate base emission.drafts)) :
    Follows program (scope.walkLeaf (if value then .setTrue else .setFalse) args) base
      (base + emission.slots.length) := by
  obtain ⟨index, hindex, rfl⟩ := Scope.emission_emitFlag_ok hemit
  have hfit : index ≤ 0xffff := (Operand.word_fits_iff index).mp (hfits _ List.mem_cons_self)
  have hfetch := hloaded _ List.mem_cons_self
  intro w
  have hstep := (step_of_fetch hfetch w).trans (Draft.execute_write hfit value base w)
  refine ⟨.on (w.write index value), ?_, .step hstep (.refl _)⟩
  cases value <;> simp [Scope.walkLeaf, Scope.flag?_of_ok hindex]

/-- An event whose instructions are recorded. -/
theorem recorded {kind : EventKind} (hstop : kind ≠ .stop) (hset : kind ≠ .setTrue)
    (hclear : kind ≠ .setFalse) {args : Fields} {emission : Emission}
    (hemit : scope.emit kind args = .ok emission) (hfits : ∀ d ∈ emission.drafts, d.Fits)
    {base : Nat} (hloaded : Loaded program (locate base emission.drafts)) :
    Follows program (scope.walkLeaf kind args) base (base + emission.slots.length) := by
  have hrecorded : ∀ d ∈ emission.drafts, d.opcode ∉ Opcode.controls := fun d hd =>
    EventKind.not_mem_controls hstop hset hclear _ (Scope.within_emit hemit d hd).1
  intro w
  obtain ⟨commands, hcommands, hruns⟩ := runs_recorded hrecorded hfits hloaded w
  refine ⟨.on (w.record commands), ?_, hruns⟩
  rw [Scope.walkLeaf]
  · rw [hemit]
    show (do
      return Walked.on (w.record (← emission.drafts.mapM Draft.command?)) : Option Walked) = _
    rw [hcommands]
    rfl
  all_goals assumption

/-- An event that is no test. -/
theorem leaf {kind : EventKind} {args : Fields} {emission : Emission}
    (hemit : scope.emit kind args = .ok emission) (hfits : ∀ d ∈ emission.drafts, d.Fits)
    {base : Nat} (hloaded : Loaded program (locate base emission.drafts)) :
    Follows program (scope.walkLeaf kind args) base (base + emission.slots.length) := by
  by_cases hstop : kind = .stop
  · subst hstop
    cases hemit
    exact .stop hloaded
  by_cases hset : kind = .setTrue
  · subst hset
    exact @write _ _ true _ _ hemit hfits _ hloaded
  by_cases hclear : kind = .setFalse
  · subst hclear
    exact @write _ _ false _ _ hemit hfits _ hloaded
  exact .recorded hstop hset hclear hemit hfits hloaded

/-- A test: the header chooses between the code for a set flag, behind the jump, and the code
for a clear one, which ends in the jump over the other. -/
theorem test {flag base : Nat} {whenSet whenClear next : Plan}
    {walkSet walkClear : World → Option Walked}
    (hfits : flag ≤ 0xffff ∧ base + 8 + whenClear.size ≤ 0xffff ∧
      base + 8 + whenClear.size + whenSet.size ≤ 0xffff)
    (hloaded : Loaded program ((Plan.test flag whenSet whenClear next).located base))
    (hset : Follows program walkSet (base + 8 + whenClear.size)
      (base + 8 + whenClear.size + whenSet.size))
    (hclear : Follows program walkClear (base + 5) (base + 5 + whenClear.size)) :
    Follows program (fun w => if w.flags flag then walkSet w else walkClear w) base
      (base + 8 + whenClear.size + whenSet.size) := by
  obtain ⟨hflag, hturn, hstop⟩ := hfits
  rw [Plan.located_test] at hloaded
  have htest := hloaded _ (List.mem_append_left _ (List.mem_append_left _ List.mem_cons_self))
  have hjump := hloaded _ (List.mem_append_left _ (List.mem_append_right _ List.mem_cons_self))
  intro w
  -- one step of the header in either case; a clear flag takes one more, the jump,
  -- unless the body stops
  have hheader := (step_of_fetch htest w).trans (Draft.execute_ifTrue hflag hturn base w)
  cases hw : w.flags flag with
  | true =>
      simp only [hw, if_true] at hheader ⊢
      obtain ⟨r, hwalk, hreach⟩ := hset w
      exact ⟨r, hwalk, .of_runs (.step hheader (.refl _)) hreach⟩
  | false =>
      simp only [hw, Bool.false_eq_true, if_false] at hheader ⊢
      obtain ⟨r, hwalk, hreach⟩ := hclear w
      refine ⟨r, hwalk, .of_runs (.step hheader (.refl _)) ?_⟩
      cases r with
      | on w' =>
          have hover := (step_of_fetch hjump w').trans (Draft.execute_jump hstop _ w')
          exact hreach.trans (.step hover (.refl _))
      | stopped w' => exact hreach

end Follows

/-! ## Scripts -/

theorem Scope.walkEvent_leaf (scope : Scope) {event : Event} (h : event.branches? = none) :
    scope.walkEvent event = scope.walkLeaf event.kind event.args := by
  cases event with
  | plain kind args =>
      cases kind
      case ifTrue | ifFalse => cases h
      all_goals rfl
  | conditional kind args whenTrue whenFalse =>
      cases kind
      case ifTrue | ifFalse => cases h
      all_goals rfl

theorem Scope.walkEvent_test {scope : Scope} {event : Event} {whenSet whenClear : Script}
    {flag : Nat} (h : event.branches? = some (whenSet, whenClear))
    (hflag : Symbols.flagIndex scope.symbols.flags (event.args.get "flag") = .ok flag) :
    scope.walkEvent event = fun w =>
      if w.flags flag then scope.walkEvents whenSet w else scope.walkEvents whenClear w := by
  have hsome := Scope.flag?_of_ok hflag
  unfold Event.branches? at h
  split at h
  all_goals cases h
  all_goals
    funext w
    simp only [Event.args] at hsome
    simp [Scope.walkEvent, Scope.walkEvents, hsome]

/-- The code of a plan does what a walk over its script does. -/
theorem Planned.follows {scope : Scope} {script : Script} {plan : Plan}
    (h : Planned scope script plan) {program : Program} {base : Nat}
    (hfits : ∀ d ∈ plan.drafts base, d.Fits) (hloaded : Loaded program (plan.located base)) :
    Follows program (scope.walkEvents script) base (base + plan.size) := by
  induction h generalizing base with
  | nil => exact fun w => ⟨.on w, by rw [Scope.walkEvents], .refl _⟩
  | @leaf event rest emission next hleaf hemit _ ih =>
      obtain ⟨hemission, hnext⟩ := Plan.fits_straight.mp hfits
      rw [Plan.located_straight] at hloaded
      obtain ⟨hloadedHere, hloadedNext⟩ := List.forall_mem_append.mp hloaded
      have hevent := Follows.leaf hemit hemission hloadedHere
      rw [← scope.walkEvent_leaf hleaf] at hevent
      rw [Plan.size, ← Nat.add_assoc]
      exact hevent.cons (ih hnext hloadedNext)
  | @test event rest whenSet whenClear flag set clear next htest hflag _ _ _ ihSet ihClear ih =>
      obtain ⟨hwords, hclear, hset, hnext⟩ := Plan.fits_test.mp hfits
      have hparts := hloaded
      simp only [Loaded, Plan.located_test, List.forall_mem_append, List.forall_mem_cons] at hparts
      obtain ⟨⟨⟨-, hloadedClear⟩, -, hloadedSet⟩, hloadedNext⟩ := hparts
      have hevent := Follows.test hwords hloaded (ihSet hset hloadedSet)
        (ihClear hclear hloadedClear)
      rw [← Scope.walkEvent_test htest hflag] at hevent
      have hsize : base + (Plan.test flag set clear next).size =
          base + 8 + clear.size + set.size + next.size := by
        simp only [Plan.size]
        omega
      rw [hsize]
      exact hevent.cons (ih hnext hloadedNext)

/-- The program of a script halts from any flags, in the world of the walk. -/
theorem Scope.generate_halts {scope : Scope} {script : Script} {program : Program}
    {state : Generator} (h : scope.generate script {} = .ok program state) (flags : Flags) :
    ∃ w, scope.walk script flags = some w ∧ Halts program ⟨0, .initial flags⟩ w := by
  obtain ⟨plan, hprogram, -⟩ := Scope.assembled_of_generate h
  have hloaded : Loaded program (disassemble program).instructions := fun i hi =>
    fetch_of_mem_disassembleFrom List.drop_zero.symm hi
  rw [hprogram.instructions_eq] at hloaded
  obtain ⟨hbody, hend⟩ := List.forall_mem_append.mp hloaded
  obtain ⟨r, hwalk, hreach⟩ := hprogram.planned.follows hprogram.fits_drafts hbody (.initial flags)
  refine ⟨r.world, by rw [Scope.walk, hwalk]; rfl, ?_⟩
  cases r with
  | on w =>
      rw [Nat.zero_add] at hreach
      exact ⟨_, hreach, step_of_fetch (hend _ List.mem_cons_self) w⟩
  | stopped w => exact hreach

/-! ## Sessions -/

namespace Compilation

theorem ofResult_ok {α : Type} {r : Except Fault α} {a : α} {s s' : Session} :
    ofResult r s = .ok a s' ↔ r = .ok a ∧ s' = s := by
  cases r with
  | ok b =>
      show EStateM.Result.ok b s = _ ↔ _
      simp [eq_comm]
  | error fault =>
      show EStateM.Result.error fault s = _ ↔ _
      simp

theorem generate_ok {scope : Scope} {script : Script} {program : Program} {s s' : Session}
    (h : generate scope script s = .ok program s') :
    ∃ state, scope.generate script {} = .ok program state := by
  rw [generate_run] at h
  cases hrun : scope.generate script {} with
  | ok found state =>
      rw [hrun] at h
      cases h
      exact ⟨state, rfl⟩
  | error fault state =>
      rw [hrun] at h
      cases h

/-- A script that a session compiles is laid out in the scope of its scene. -/
theorem compileScript_ok {script : Script} {symbols : Symbols} {program : Program} {s s' : Session}
    (h : compileScript script symbols s = .ok program s') :
    ∃ scope state, Scope.ofScene symbols s.scene = .ok scope ∧
      scope.generate script {} = .ok program state := by
  unfold compileScript at h
  obtain ⟨session, t, hget, h⟩ := bind_ok.mp h
  cases hget
  obtain ⟨message, t₀, -, h⟩ := bind_ok.mp h
  obtain ⟨-, t₁, -, h⟩ := bind_ok.mp h
  obtain ⟨scope, t₂, hscope, h⟩ := bind_ok.mp h
  obtain ⟨found, t₃, hgenerate, h⟩ := bind_ok.mp h
  obtain ⟨-, t₄, -, hreturn⟩ := bind_ok.mp h
  cases hreturn
  obtain ⟨state, hstate⟩ := generate_ok hgenerate
  exact ⟨scope, state, (ofResult_ok.mp hscope).1, hstate⟩

/-- **A program does what its script does.**  If a session compiles a script, then from any
flags the script can be walked to its end in the scope of the scene, and the program, run from
its first byte, halts with the same flags and the same commands recorded. -/
theorem compileScript_halts_as_walked {script : Script} {symbols : Symbols} {program : Program}
    {s s' : Session} (h : compileScript script symbols s = .ok program s') (flags : Flags) :
    ∃ scope w, Scope.ofScene symbols s.scene = .ok scope ∧ scope.walk script flags = some w ∧
      Halts program ⟨0, .initial flags⟩ w := by
  obtain ⟨scope, state, hscope, hgenerate⟩ := compileScript_ok h
  obtain ⟨w, hwalk, hhalts⟩ := Scope.generate_halts hgenerate flags
  exact ⟨scope, w, hscope, hwalk, hhalts⟩

end Compilation

/-- The nested script with an event behind it. -/
def nestedThenHide : Script := nestedScript ++ [.plain .hideSprites []]

/-- With all flags clear the lamp is set and the event behind runs; with the door set, a stop
two bodies deep ends the program before it. -/
theorem compileScript_halts_as_walked_nested :
    ∃ program s', Compilation.compileScript nestedThenHide nestedScope.symbols {} = .ok program s' ∧
      (∃ w, Halts program ⟨0, .initial fun _ => false⟩ w ∧ w.recorded = [⟨.hideSprites, []⟩] ∧
        w.flags 0 = true ∧ w.flags 1 = false) ∧
      ∃ w, Halts program ⟨0, .initial fun n => n == 1⟩ w ∧ w.recorded = [] ∧ w.flags 0 = false := by
  obtain ⟨program, s', h⟩ : ∃ program s',
      Compilation.compileScript nestedThenHide nestedScope.symbols {} = .ok program s' :=
    ⟨_, Compilation.compileScript_of_generate rfl rfl rfl⟩
  refine ⟨program, s', h, ?_, ?_⟩
  · obtain ⟨_, w, hscope, hwalk, hhalts⟩ :=
      Compilation.compileScript_halts_as_walked h fun _ => false
    cases hscope
    cases hwalk
    exact ⟨_, hhalts, rfl, rfl, rfl⟩
  · obtain ⟨_, w, hscope, hwalk, hhalts⟩ :=
      Compilation.compileScript_halts_as_walked h fun n => n == 1
    cases hscope
    cases hwalk
    exact ⟨_, hhalts, rfl, rfl⟩

end SceneScript
