import SceneScript.Proofs.Acceptance
import SceneScript.Proofs.Disassembly
import SceneScript.Proofs.Isolation

/-!
# Operands denote what the author named

Scripts name texts, flags, scenes, actors and tracks; programs number them.  Here the numbers
are read back from the finished program and compared with the tables.  The index in an operand
is the least one at which the table has what the event names, and the five tables differ in what
happens if it has nothing: a text or a flag must be there, a scene that is gone takes its event
with it, an actor that is gone is number 0, and a track that is gone is the first one.

`Spells` matches a script with instructions in the order of the layout, where the body for a
clear flag comes before the body for a set one.  It says nothing of addresses and asks nothing
of operands that are no names.
-/

namespace SceneScript

/-! ## The least index -/

/-- The least index at which an entry passes a test. -/
structure IsFirst (test : Value → Bool) (entries : List Value) (n : Nat) : Prop where
  passes : ∃ entry, entries[n]? = some entry ∧ test entry = true
  least : ∀ m < n, ∀ entry, entries[m]? = some entry → test entry = false

/-- No entry passes a test. -/
def NoneOf (test : Value → Bool) (entries : List Value) : Prop :=
  ∀ entry ∈ entries, test entry = false

theorem findIdx?_eq_some_iff_isFirst {test : Value → Bool} {entries : List Value} {n : Nat} :
    entries.findIdx? test = some n ↔ IsFirst test entries n := by
  rw [List.findIdx?_eq_some_iff_getElem]
  constructor
  · rintro ⟨hn, hpass, hleast⟩
    refine ⟨⟨entries[n], List.getElem?_eq_getElem hn, hpass⟩, ?_⟩
    intro m hm entry hentry
    obtain ⟨_, rfl⟩ := List.getElem?_eq_some_iff.mp hentry
    exact Bool.eq_false_iff.mpr (hleast m hm)
  · rintro ⟨⟨entry, hentry, hpass⟩, hleast⟩
    obtain ⟨hn, rfl⟩ := List.getElem?_eq_some_iff.mp hentry
    refine ⟨hn, hpass, ?_⟩
    intro m hm
    exact Bool.eq_false_iff.mp (hleast m hm _ (List.getElem?_eq_getElem (Nat.lt_trans hm hn)))

namespace Symbols

theorem entryIndex?_some {entries : List Value} {id : Value} {n : Nat}
    (h : entryIndex? entries id = some n) : IsFirst (hasId id) entries n :=
  findIdx?_eq_some_iff_isFirst.mp h

theorem entryIndex?_none {entries : List Value} {id : Value} (h : entryIndex? entries id = none) :
    NoneOf (hasId id) entries :=
  List.findIdx?_eq_none_iff.mp h

theorem stringIndex_ok_iff {strings : List Value} {text : Value} {n : Nat} :
    stringIndex strings text = .ok n ↔ Value.indexIn? strings (storedText text) = some n := by
  rw [stringIndex]
  cases Value.indexIn? strings (storedText text) with
  | none => simp
  | some index => simp

theorem flagIndex_ok_iff {flags : List Value} {flag : Value} {n : Nat} :
    flagIndex flags flag = .ok n ↔ Value.indexIn? flags flag = some n := by
  rw [flagIndex]
  cases Value.indexIn? flags flag with
  | none => simp
  | some index => simp

theorem stringIndex_ok {strings : List Value} {text : Value} {n : Nat}
    (h : stringIndex strings text = .ok n) :
    IsFirst (fun entry => entry.same (storedText text)) strings n :=
  findIdx?_eq_some_iff_isFirst.mp (stringIndex_ok_iff.mp h)

theorem flagIndex_ok {flags : List Value} {flag : Value} {n : Nat}
    (h : flagIndex flags flag = .ok n) : IsFirst (fun entry => entry.same flag) flags n :=
  findIdx?_eq_some_iff_isFirst.mp (flagIndex_ok_iff.mp h)

end Symbols

/-! ## Names in operands -/

/-- The code is one instruction with the given opcode, and it names something. -/
def OneInstruction (opcode : Opcode) (names : Instruction → Prop) (code : List Instruction) :
    Prop :=
  ∃ i, code = [i] ∧ i.opcode = opcode ∧ names i

namespace Scope

/-- The first word of an instruction is the least index of the event's text. -/
def NamesText (scope : Scope) (args : Fields) (i : Instruction) : Prop :=
  ∃ n, wordAt i.operands 0 = .ok n ∧
    IsFirst (fun entry => entry.same (Symbols.storedText (args.get "text"))) scope.symbols.strings n

/-- The first word of an instruction is the least index of the event's flag. -/
def NamesFlag (scope : Scope) (args : Fields) (i : Instruction) : Prop :=
  ∃ n, wordAt i.operands 0 = .ok n ∧
    IsFirst (fun entry => entry.same (args.get "flag")) scope.symbols.flags n

/-- The first word of an instruction is the least index of a scene with the event's id. -/
def NamesScene (scope : Scope) (args : Fields) (i : Instruction) : Prop :=
  ∃ n, wordAt i.operands 0 = .ok n ∧
    IsFirst (Symbols.hasId (args.get "sceneId")) scope.symbols.scenes n

/-- The first byte of an instruction is the number of the event's actor, from one; zero if there
is none. -/
def NamesActor (scope : Scope) (args : Fields) (i : Instruction) : Prop :=
  ∃ byte rest, i.operands = byte :: rest ∧
    ((∃ n, byte.toNat = n + 1 ∧ IsFirst (Symbols.hasId (args.get "actorId")) scope.actors n) ∨
      byte.toNat = 0 ∧ NoneOf (Symbols.hasId (args.get "actorId")) scope.actors)

/-- The first byte of an instruction is the least index of a track with the event's id; zero if
there is none. -/
def NamesTrack (scope : Scope) (args : Fields) (i : Instruction) : Prop :=
  ∃ byte rest, i.operands = byte :: rest ∧
    (IsFirst (Symbols.hasId (args.get "musicId")) scope.symbols.music byte.toNat ∨
      byte.toNat = 0 ∧ NoneOf (Symbols.hasId (args.get "musicId")) scope.symbols.music)

/-- The code makes the event's actor active and then does something with it. -/
def ActivatesThen (scope : Scope) (args : Fields) (opcode : Opcode) (code : List Instruction) :
    Prop :=
  ∃ a i, code = [a, i] ∧ a.opcode = .actorSetActive ∧ i.opcode = opcode ∧ scope.NamesActor args a

/-- What the code of an event says about the names in it.  The event of a scene that is gone has
no code. -/
def Denotes (scope : Scope) (kind : EventKind) (args : Fields) (code : List Instruction) : Prop :=
  match kind with
  | .text => OneInstruction .text (scope.NamesText args) code
  | .setTrue => OneInstruction .setTrue (scope.NamesFlag args) code
  | .setFalse => OneInstruction .setFalse (scope.NamesFlag args) code
  | .switchScene =>
    OneInstruction .switchScene (scope.NamesScene args) code ∨
      code = [] ∧ NoneOf (Symbols.hasId (args.get "sceneId")) scope.symbols.scenes
  | .actorSetPosition => scope.ActivatesThen args .actorSetPosition code
  | .actorSetDirection => scope.ActivatesThen args .actorSetDirection code
  | .actorMoveTo => scope.ActivatesThen args .actorMoveTo code
  | .actorEmote => OneInstruction .actorEmote (scope.NamesActor args) code
  | .actorShow => OneInstruction .actorShow (scope.NamesActor args) code
  | .actorHide => OneInstruction .actorHide (scope.NamesActor args) code
  | .musicPlay => OneInstruction .musicPlay (scope.NamesTrack args) code
  | _ => ∀ i ∈ code, i.opcode ∈ kind.opcodes

/-- `Spells scope script code`: the instructions are those of the events, in the order of the
layout, and each name in an event is denoted by its operand. -/
inductive Spells (scope : Scope) : Script → List Instruction → Prop
  | nil : Spells scope [] []
  | leaf {event : Event} {rest : Script} {code more : List Instruction} :
      event.branches? = none → scope.Denotes event.kind event.args code → Spells scope rest more →
      Spells scope (event :: rest) (code ++ more)
  | test {event : Event} {rest whenSet whenClear : Script} {i j : Instruction}
      {set clear more : List Instruction} :
      event.branches? = some (whenSet, whenClear) → i.opcode = .ifTrue →
      scope.NamesFlag event.args i →
      Spells scope whenClear clear → j.opcode = .jump → Spells scope whenSet set →
      Spells scope rest more → Spells scope (event :: rest) (i :: clear ++ j :: set ++ more)

end Scope

/-! ## Operands read back -/

theorem wordAt_zero (high low : UInt8) (rest : List UInt8) :
    wordAt (high :: low :: rest) 0 = .ok (high.toNat * 256 + low.toNat) := by
  have hstretch : Indexing.stretch (high :: low :: rest) (some 0) (some (0 + 2)) = [high, low] := by
    have hstart : Indexing.clamp (rest.length + 1 + 1) 0 = 0 := rfl
    have hstop : Indexing.clamp (rest.length + 1 + 1) (0 + 2) = 2 := by
      simp [Indexing.clamp]
    simp only [Indexing.stretch, Option.elim_some, List.length_cons, hstart, hstop]
    rfl
  rw [wordAt, hstretch]

/-- A word that fits is read back. -/
theorem Draft.wordAt_located {opcode : Opcode} {n : Nat} (h : n ≤ 0xffff) (operands : List Value)
    (address : Nat) :
    wordAt (Draft.located ⟨opcode, Operand.word n ++ operands⟩ address).operands 0 = .ok n := by
  obtain ⟨high, low, hbytes, rfl⟩ := Operand.bytes_word h
  rw [Draft.located, Draft.operandBytes, List.filterMap_append, hbytes]
  exact wordAt_zero high low _

theorem Draft.fits_word {opcode : Opcode} {n : Nat} {operands : List Value}
    (h : Draft.Fits ⟨opcode, Operand.word n ++ operands⟩) : n ≤ 0xffff :=
  (Operand.word_fits_iff n).mp (List.forall_mem_append.mp h).1

/-- So is a byte that fits. -/
theorem Draft.operands_located {opcode : Opcode} {n : Nat} {operands : List Value}
    (h : Draft.Fits ⟨opcode, .nat n :: operands⟩) (address : Nat) :
    ∃ byte rest, (Draft.located ⟨opcode, .nat n :: operands⟩ address).operands = byte :: rest ∧
      byte.toNat = n := by
  have hn : n ≤ 255 := Value.byte?_nat_isSome.mp (List.forall_mem_cons.mp h).1
  have hbyte : (Value.nat n).byte? = some (UInt8.ofNat n) := by
    rw [Value.byte?_int, if_pos hn]
  refine ⟨UInt8.ofNat n, operands.filterMap Value.byte?, List.filterMap_cons_some hbyte, ?_⟩
  rw [UInt8.toNat_ofNat']
  omega

/-! ## Recipes -/

namespace Scope

variable {scope : Scope} {args : Fields}

theorem denotes_emitText {r : Recipe} (h : scope.emitText args = .ok r) (hfits : r.Fits)
    (base : Nat) : OneInstruction .text (scope.NamesText args) (locate base r.drafts) := by
  obtain ⟨n, hindex, rfl⟩ := emitText_ok.mp h
  have hn := @Draft.fits_word .text n [] (hfits _ List.mem_cons_self)
  exact ⟨_, rfl, rfl, n, Draft.wordAt_located hn [] base, Symbols.stringIndex_ok hindex⟩

theorem denotes_emitFlag {opcode : Opcode} {r : Recipe} (h : scope.emitFlag opcode args = .ok r)
    (hfits : r.Fits) (base : Nat) : OneInstruction opcode (scope.NamesFlag args)
    (locate base r.drafts) := by
  obtain ⟨n, hindex, rfl⟩ := emitFlag_ok.mp h
  have hn := @Draft.fits_word opcode n [] (hfits _ List.mem_cons_self)
  exact ⟨_, rfl, rfl, n, Draft.wordAt_located hn [] base, Symbols.flagIndex_ok hindex⟩

theorem denotes_emitSwitchScene (hfits : (scope.emitSwitchScene args).Fits) (base : Nat) :
    scope.Denotes .switchScene args (locate base (scope.emitSwitchScene args).drafts) := by
  cases hindex : Symbols.entryIndex? scope.symbols.scenes (args.get "sceneId") with
  | none =>
      simp only [emitSwitchScene, hindex]
      exact .inr ⟨rfl, Symbols.entryIndex?_none hindex⟩
  | some n =>
      simp only [emitSwitchScene, hindex, List.append_assoc] at hfits ⊢
      have hn := Draft.fits_word (hfits _ List.mem_cons_self)
      exact .inl ⟨_, rfl, rfl, n, Draft.wordAt_located hn _ base, Symbols.entryIndex?_some hindex⟩

theorem namesActor_located {opcode : Opcode} {operands : List Value}
    (hfits : Draft.Fits ⟨opcode, .nat (scope.actorNumber args) :: operands⟩) (address : Nat) :
    scope.NamesActor args
      (Draft.located ⟨opcode, .nat (scope.actorNumber args) :: operands⟩ address) := by
  obtain ⟨byte, rest, hoperands, hbyte⟩ := Draft.operands_located hfits address
  refine ⟨byte, rest, hoperands, ?_⟩
  rw [hbyte, actorNumber, Symbols.actorNumber]
  cases hindex : Symbols.entryIndex? scope.actors (args.get "actorId") with
  | none => exact .inr ⟨rfl, Symbols.entryIndex?_none hindex⟩
  | some n => exact .inl ⟨n, rfl, Symbols.entryIndex?_some hindex⟩

theorem denotes_emitActor {opcode : Opcode} {operands : List Value}
    (hfits : (scope.emitActor opcode args operands).Fits) (base : Nat) :
    OneInstruction opcode (scope.NamesActor args)
      (locate base (scope.emitActor opcode args operands).drafts) :=
  ⟨_, rfl, rfl, namesActor_located (hfits _ List.mem_cons_self) base⟩

theorem denotes_emitActiveActor {opcode : Opcode} {operands : List Value}
    (hfits : (scope.emitActiveActor opcode args operands).Fits) (base : Nat) :
    scope.ActivatesThen args opcode
      (locate base (scope.emitActiveActor opcode args operands).drafts) :=
  ⟨_, _, rfl, rfl, rfl, namesActor_located (hfits _ List.mem_cons_self) base⟩

theorem denotes_emitMusicPlay (hfits : (scope.emitMusicPlay args).Fits) (base : Nat) :
    OneInstruction .musicPlay (scope.NamesTrack args)
      (locate base (scope.emitMusicPlay args).drafts) := by
  obtain ⟨byte, rest, hoperands, hbyte⟩ := Draft.operands_located (hfits _ List.mem_cons_self) base
  refine ⟨_, rfl, rfl, byte, rest, hoperands, ?_⟩
  rw [hbyte, Symbols.trackIndex]
  cases hindex : Symbols.entryIndex? scope.symbols.music (args.get "musicId") with
  | none => exact .inr ⟨rfl, Symbols.entryIndex?_none hindex⟩
  | some n => exact .inl (Symbols.entryIndex?_some hindex)

/-- All kinds: the recipe of an event denotes what the event names. -/
theorem denotes_recipe {kind : EventKind} {r : Recipe} (h : scope.recipe kind args = .ok r)
    (hfits : r.Fits) (base : Nat) : scope.Denotes kind args (locate base r.drafts) := by
  have hother : ∀ i ∈ locate base r.drafts, i.opcode ∈ kind.opcodes := by
    intro i hi
    obtain ⟨d, hd, hop⟩ := opcode_of_mem_locate hi
    rw [← hop]
    exact (within_recipe h d hd).1
  cases kind
  case text => exact denotes_emitText h hfits base
  case setTrue => exact denotes_emitFlag h hfits base
  case setFalse => exact denotes_emitFlag h hfits base
  case switchScene =>
      cases h
      exact denotes_emitSwitchScene hfits base
  case actorSetPosition | actorSetDirection | actorMoveTo =>
      cases h
      exact denotes_emitActiveActor hfits base
  case actorEmote | actorShow | actorHide =>
      cases h
      exact denotes_emitActor hfits base
  case musicPlay =>
      cases h
      exact denotes_emitMusicPlay hfits base
  all_goals exact hother

theorem denotes_emit {kind : EventKind} {e : Emission} (h : scope.emit kind args = .ok e)
    (hfits : e.Fits) (base : Nat) : scope.Denotes kind args (locate base e.drafts) := by
  obtain ⟨r, hr, hdrafts, -⟩ := emit_ok.mp h
  rw [Emission.Fits, hdrafts] at hfits
  rw [hdrafts]
  exact denotes_recipe hr hfits base

end Scope

/-! ## Scripts -/

/-- The code of a plan spells its script, wherever it stands. -/
theorem Planned.spells {scope : Scope} {script : Script} {plan : Plan}
    (h : Planned scope script plan) {base : Nat} (hfits : ∀ d ∈ plan.drafts base, d.Fits) :
    scope.Spells script (plan.located base) := by
  induction h generalizing base with
  | nil => exact .nil
  | leaf hleaf hemit _ ih =>
      obtain ⟨hemission, hnext⟩ := Plan.fits_straight.mp hfits
      rw [Plan.located_straight]
      exact .leaf hleaf (Scope.denotes_emit hemit hemission base) (ih hnext)
  | test htest hflag _ _ _ ihSet ihClear ih =>
      obtain ⟨⟨hword, -, -⟩, hclear, hset, hnext⟩ := Plan.fits_test.mp hfits
      rw [Plan.located_test]
      exact .test htest rfl ⟨_, Draft.wordAt_located hword _ base, Symbols.flagIndex_ok hflag⟩
        (ihClear hclear) rfl (ihSet hset) (ih hnext)

/-- **Operands denote what the author named.**  The program of a job disassembles, and its
instructions up to the final `END` are those of the events of the script in the order of the
layout.  The index of each text and flag is the least at which the table has it; a scene is
denoted by its least index too, and its event has no code just if no entry has its id; an actor
of the scene of the session is denoted by the least number with its id, counted from one, and by
0 if there is none; a track by its least index, and by 0 if there is none. -/
theorem Job.operands_denote_names {job : Job} {session after : Session} {program : Program}
    (h : job.run session = .ok program after) :
    ∃ script symbols actors code, job.read = .ok (script, symbols) ∧
      symbols.sceneActors session.scene = .ok actors ∧ (disassemble program).failure = none ∧
      (disassemble program).instructions = code ++ [⟨program.length - 1, .halt, []⟩] ∧
      Scope.Spells ⟨symbols, actors⟩ script code := by
  obtain ⟨script, symbols, scope, state, hread, hscope, hgenerate⟩ :=
    Job.alone_ok (Session.alone_of_run h)
  obtain ⟨actors, hactors, hreturn⟩ := result_bind_ok.mp hscope
  cases hreturn
  obtain ⟨plan, hprogram, -⟩ := Scope.assembled_of_generate hgenerate
  refine ⟨script, symbols, actors, plan.located 0, hread, hactors, ?_, ?_, ?_⟩
  · rw [hprogram.disassembly]
  · rw [hprogram.instructions_eq, hprogram.length, Nat.add_sub_cancel]
  · exact hprogram.planned.spells hprogram.fits_drafts

/-! ## At an inn -/

/-- If the door is set a space is shown; else the cook appears and a switch to a scene that is
gone follows.  Then there is music. -/
def innScript : Script :=
  [.whenSet (.str "door") [.plain .text []]
      [.plain .actorShow [(.str "actorId", .str "cook")],
        .plain .switchScene [(.str "sceneId", .str "cellar")]],
    .plain .musicPlay [(.str "musicId", .int 1)]]

/-- Doors and spaces are listed twice, the cook is the second actor, and a truth value counts as
a number. -/
def innSymbols : Symbols where
  strings := [.str "Welcome", .str " ", .str " "]
  flags := [.str "lamp", .str "door", .str "door"]
  scenes := [.str "inn"]
  music := [.str "waltz", .bool true]
  actors := [(.str "inn", [.str "host", .object [(.str "id", .str "cook")]])]

/-- The program of the inn: flag 1, actor 2, nothing for the cellar, text 1, track 1. -/
def innProgram : Program := [3, 0, 1, 0, 10, 20, 2, 2, 0, 13, 1, 0, 1, 30, 1, 0, 0]

theorem operands_denote_names_inn :
    ∃ after, (Job.events innScript innSymbols).run { scene := .str "inn" } = .ok innProgram after ∧
      ∃ actors code, innSymbols.sceneActors (.str "inn") = .ok actors ∧
        (disassemble innProgram).instructions = code ++ [⟨16, .halt, []⟩] ∧
        Scope.Spells ⟨innSymbols, actors⟩ innScript code := by
  obtain ⟨after, h⟩ : ∃ after,
      (Job.events innScript innSymbols).run { scene := .str "inn" } = .ok innProgram after :=
    Session.run_of_alone rfl
  obtain ⟨_, _, actors, code, hread, hactors, -, hcode, hspells⟩ := Job.operands_denote_names h
  cases hread
  exact ⟨after, h, actors, code, hactors, hcode, hspells⟩

end SceneScript
