import SceneScript.Generation.Emission
import SceneScript.Proofs.Wording

/-!
# The recipes agree with the instruction set

Each kind of event drafts its instructions on its own, and the table of operand counts is kept
apart from all of them.  What is held here of every draft of every kind: its opcode is one of
those listed for the kind, it has as many operands as the instruction set gives its opcode, and
no operand is null, which is what marks an open slot of the output.

An emission is a recipe with words for its fallbacks, so what holds of the recipes holds of it.
-/

namespace SceneScript

/-! ## Operands are given -/

theorem Value.isNull_of_truthy {v : Value} (h : v.truthy = true) : v.isNull = false := by
  unfold Value.isNull
  split
  · exact absurd h (by decide)
  · rfl

theorem Fields.isNull_arg (args : Fields) (name : String) {default : Value}
    (h : default.isNull = false) : (args.arg name default).isNull = false := by
  unfold Fields.arg Value.orElse
  split
  · exact Value.isNull_of_truthy ‹_›
  · exact h

theorem Operand.isNull_cameraSpeed {v speed : Value} (hv : v.isNull = false)
    (h : Operand.cameraSpeed v = .ok speed) : speed.isNull = false := by
  unfold Operand.cameraSpeed at h
  split at h
  · split at h
    · cases h
      exact hv
    · split at h
      · cases h
        rfl
      · cases h
  · cases h
    exact hv

/-- A draft that can be read back from its bytes: as many operands as its opcode takes, and none
of them an open slot. -/
structure Draft.Complete (d : Draft) : Prop where
  arity : d.operands.length = d.opcode.operandCount
  given : ∀ v ∈ d.operands, v.isNull = false

namespace Scope

theorem given_coordinates (args : Fields) : ∀ v ∈ coordinates args, v.isNull = false := by
  simp only [coordinates, List.mem_cons, List.not_mem_nil, or_false]
  rintro v (rfl | rfl)
  · exact args.isNull_arg "x" rfl
  · exact args.isNull_arg "y" rfl

theorem given_word (n : Nat) : ∀ v ∈ Operand.word n, v.isNull = false := by
  simp only [Operand.word, List.mem_cons, List.not_mem_nil, or_false]
  rintro v (rfl | rfl) <;> rfl

theorem isNull_cameraSpeed {args : Fields} {speed : Value} (h : cameraSpeed args = .ok speed) :
    speed.isNull = false :=
  Operand.isNull_cameraSpeed (args.isNull_arg "speed" rfl) h

end Scope

/-! ## From recipes to emissions -/

/-- The emission of a single instruction. -/
def Emission.single (opcode : Opcode) (operands : List Value := []) : Emission :=
  { drafts := [⟨opcode, operands⟩] }

namespace Recipe

/-- The emission of a recipe has its drafts, and warnings about its fallbacks. -/
theorem emission_ok {r : Recipe} {e : Emission} :
    r.emission = .ok e ↔ e.drafts = r.drafts ∧ e.warnings.map Warning.cause = r.fallbacks := by
  unfold emission
  rw [result_bind_ok]
  constructor
  · rintro ⟨warnings, hwarnings, h⟩
    cases h
    exact ⟨rfl, mapM_warning_ok.mp hwarnings⟩
  · obtain ⟨drafts, warnings⟩ := e
    rintro ⟨rfl, hwarnings⟩
    exact ⟨warnings, mapM_warning_ok.mpr hwarnings, rfl⟩

theorem emission_error {r : Recipe} {fault : Fault} :
    r.emission = .error fault ↔
      fault = .malformed (.tooManyDigits .toWrite) ∧ ∃ cause ∈ r.fallbacks, ¬ cause.Short := by
  unfold emission
  rw [result_bind_error, mapM_warning_error]
  refine or_iff_left ?_
  rintro ⟨_, -, h⟩
  cases h

theorem exists_emission {r : Recipe} :
    (∃ e, r.emission = .ok e) ↔ ∀ cause ∈ r.fallbacks, cause.Short := by
  constructor
  · rintro ⟨e, he⟩ cause hcause
    apply Classical.byContradiction
    intro hlong
    rw [emission_error.mpr ⟨rfl, cause, hcause, hlong⟩] at he
    cases he
  · intro hshort
    cases hemission : r.emission with
    | ok e => exact ⟨e, rfl⟩
    | error fault =>
        obtain ⟨-, cause, hcause, hlong⟩ := emission_error.mp hemission
        exact absurd (hshort cause hcause) hlong

end Recipe

namespace Scope

variable {scope : Scope} {kind : EventKind} {args : Fields}

theorem emit_ok {e : Emission} :
    scope.emit kind args = .ok e ↔
      ∃ r, scope.recipe kind args = .ok r ∧ e.drafts = r.drafts ∧
        e.warnings.map Warning.cause = r.fallbacks := by
  unfold emit
  simp only [result_bind_ok, Recipe.emission_ok]

/-- An event cannot be emitted if it has no recipe, or if a fallback of it cannot be told. -/
theorem emit_error {fault : Fault} :
    scope.emit kind args = .error fault ↔
      scope.recipe kind args = .error fault ∨
      ∃ r, scope.recipe kind args = .ok r ∧ fault = .malformed (.tooManyDigits .toWrite) ∧
        ∃ cause ∈ r.fallbacks, ¬ cause.Short := by
  unfold emit
  simp only [result_bind_error, Recipe.emission_error]

end Scope

/-! ## Opcodes -/

/-- The opcodes among which an event of a kind chooses.  The tests are not among the kinds that
emit. -/
def EventKind.opcodes : EventKind → List Opcode
  | .text => [.text]
  | .setTrue => [.setTrue]
  | .setFalse => [.setFalse]
  | .fadeIn => [.fadeIn]
  | .fadeOut => [.fadeOut]
  | .cameraMoveTo => [.cameraMoveTo]
  | .cameraLock => [.cameraLock]
  | .cameraShake => [.cameraShake]
  | .wait => [.wait]
  | .showSprites => [.showSprites]
  | .hideSprites => [.hideSprites]
  | .switchScene => [.switchScene]
  | .startBattle => [.startBattle]
  | .returnToTitle => [.returnToTitle]
  | .actorSetPosition => [.actorSetActive, .actorSetPosition]
  | .actorSetDirection => [.actorSetActive, .actorSetDirection]
  | .actorMoveTo => [.actorSetActive, .actorMoveTo]
  | .actorEmote => [.actorEmote]
  | .actorShow => [.actorShow]
  | .actorHide => [.actorHide]
  | .overlayShow => [.overlayShow]
  | .overlayHide => [.overlayHide]
  | .overlaySetPosition => [.overlaySetPosition]
  | .overlayMoveTo => [.overlayMoveTo]
  | .awaitInput => [.awaitInput]
  | .musicPlay => [.musicPlay]
  | .musicStop => [.musicStop]
  | .stop => [.halt]
  | .listEnd | .ifTrue | .ifFalse | .ifValue => []

/-- The drafts of a recipe are complete, and their opcodes are among the given ones. -/
def Recipe.Within (r : Recipe) (opcodes : List Opcode) : Prop :=
  ∀ d ∈ r.drafts, d.opcode ∈ opcodes ∧ d.Complete

namespace Recipe

theorem within_single {opcode : Opcode} {operands : List Value}
    (arity : operands.length = opcode.operandCount) (given : ∀ v ∈ operands, v.isNull = false) :
    (single opcode operands).Within [opcode] := by
  intro d hd
  obtain rfl := List.mem_singleton.mp hd
  exact ⟨List.mem_singleton.mpr rfl, arity, given⟩

theorem within_bare {opcode : Opcode} (arity : opcode.operandCount = 0) :
    (single opcode).Within [opcode] :=
  within_single arity.symm fun _ hv => absurd hv List.not_mem_nil

theorem within_one {opcode : Opcode} {operand : Value} (arity : opcode.operandCount = 1)
    (given : operand.isNull = false) : (single opcode [operand]).Within [opcode] := by
  refine within_single arity.symm fun v hv => ?_
  obtain rfl := List.mem_singleton.mp hv
  exact given

theorem within_dropped (cause : Fallback) (opcodes : List Opcode) :
    (dropped cause).Within opcodes := fun _ hd => absurd hd List.not_mem_nil

end Recipe

namespace Scope

/-! ## The recipes one by one -/

theorem emitText_ok {scope : Scope} {args : Fields} {r : Recipe} :
    scope.emitText args = .ok r ↔
      ∃ index, Symbols.stringIndex scope.symbols.strings (args.get "text") = .ok index ∧
        r = .single .text (Operand.word index) := by
  unfold emitText
  rw [result_bind_ok]
  simp only [pure, Except.pure, Except.ok.injEq, eq_comm]

theorem emitFlag_ok {scope : Scope} {opcode : Opcode} {args : Fields} {r : Recipe} :
    scope.emitFlag opcode args = .ok r ↔
      ∃ index, Symbols.flagIndex scope.symbols.flags (args.get "flag") = .ok index ∧
        r = .single opcode (Operand.word index) := by
  unfold emitFlag
  rw [result_bind_ok]
  simp only [pure, Except.pure, Except.ok.injEq, eq_comm]

/-- What a write to a flag emits. -/
theorem emission_emitFlag_ok {scope : Scope} {opcode : Opcode} {args : Fields} {e : Emission}
    (h : (scope.emitFlag opcode args >>= Recipe.emission) = .ok e) :
    ∃ index, Symbols.flagIndex scope.symbols.flags (args.get "flag") = .ok index ∧
      e = .single opcode (Operand.word index) := by
  obtain ⟨_, hflag, hemission⟩ := result_bind_ok.mp h
  obtain ⟨index, hindex, rfl⟩ := emitFlag_ok.mp hflag
  cases hemission
  exact ⟨index, hindex, rfl⟩

theorem emitCamera_ok {opcode : Opcode} {args : Fields} {operands : List Value} {r : Recipe} :
    emitCamera opcode args operands = .ok r ↔
      ∃ speed, cameraSpeed args = .ok speed ∧ r = .single opcode (operands ++ [speed]) := by
  unfold emitCamera
  rw [result_bind_ok]
  simp only [pure, Except.pure, Except.ok.injEq, eq_comm]

theorem emitStartBattle_ok {args : Fields} {r : Recipe} :
    emitStartBattle args = .ok r ↔
      ∃ number, Operand.leadingInteger (args.get "encounter") = .ok number ∧
        r = battle (args.get "encounter") number := by
  unfold emitStartBattle
  rw [result_bind_ok]
  simp only [pure, Except.pure, Except.ok.injEq, eq_comm]

theorem within_emitCamera {opcode : Opcode} {args : Fields} {operands : List Value} {r : Recipe}
    (arity : operands.length + 1 = opcode.operandCount) (given : ∀ v ∈ operands, v.isNull = false)
    (h : emitCamera opcode args operands = .ok r) : r.Within [opcode] := by
  obtain ⟨speed, hspeed, rfl⟩ := emitCamera_ok.mp h
  apply Recipe.within_single (by rw [List.length_append]; exact arity)
  intro v hv
  rcases List.mem_append.mp hv with hv | hv
  · exact given v hv
  · obtain rfl := List.mem_singleton.mp hv
    exact isNull_cameraSpeed hspeed

theorem within_emitFade {opcode : Opcode} (args : Fields) (arity : opcode.operandCount = 1) :
    (emitFade opcode args).Within [opcode] :=
  Recipe.within_one arity (args.isNull_arg "speed" rfl)

theorem within_emitTicks {opcode : Opcode} (args : Fields) (arity : opcode.operandCount = 1) :
    (emitTicks opcode args).Within [opcode] := by
  intro d hd
  obtain ⟨ticks, -, rfl⟩ := List.mem_map.mp hd
  refine ⟨List.mem_singleton.mpr rfl, arity.symm, fun v hv => ?_⟩
  obtain rfl := List.mem_singleton.mp hv
  rfl

theorem within_emitSwitchScene (scope : Scope) (args : Fields) :
    (scope.emitSwitchScene args).Within [.switchScene] := by
  unfold emitSwitchScene
  dsimp only
  split
  · exact Recipe.within_dropped _ _
  · apply Recipe.within_single rfl
    intro v hv
    simp only [List.mem_append, List.mem_cons, List.not_mem_nil, or_false] at hv
    rcases hv with (hv | hv) | rfl | rfl
    · exact given_word _ v hv
    · exact given_coordinates args v hv
    · rfl
    · exact args.isNull_arg "fadeSpeed" rfl

theorem within_battle (encounter : Value) (number : Option Int) :
    (battle encounter number).Within [.startBattle] := by
  unfold battle
  split
  · exact Recipe.within_dropped _ _
  · split
    · exact Recipe.within_dropped _ _
    · exact Recipe.within_one rfl rfl

theorem within_emitActor (scope : Scope) {opcode : Opcode} (args : Fields) {operands : List Value}
    (arity : operands.length + 1 = opcode.operandCount) (given : ∀ v ∈ operands, v.isNull = false) :
    (scope.emitActor opcode args operands).Within [opcode] := by
  intro d hd
  obtain rfl := List.mem_singleton.mp hd
  refine ⟨List.mem_singleton.mpr rfl, arity, fun v hv => ?_⟩
  rcases List.mem_cons.mp hv with rfl | hv
  · rfl
  · exact given v hv

theorem within_emitActiveActor (scope : Scope) {opcode : Opcode} (args : Fields)
    {operands : List Value} (arity : operands.length = opcode.operandCount)
    (given : ∀ v ∈ operands, v.isNull = false) :
    (scope.emitActiveActor opcode args operands).Within [.actorSetActive, opcode] := by
  intro d hd
  simp only [emitActiveActor, List.mem_cons, List.not_mem_nil, or_false] at hd
  rcases hd with rfl | rfl
  · refine ⟨List.mem_cons_self, rfl, fun v hv => ?_⟩
    obtain rfl := List.mem_singleton.mp hv
    rfl
  · exact ⟨List.mem_cons_of_mem _ List.mem_cons_self, arity, given⟩

theorem within_emitOverlayShow (args : Fields) : (emitOverlayShow args).Within [.overlayShow] := by
  apply Recipe.within_single rfl
  intro v hv
  rcases List.mem_cons.mp hv with rfl | hv
  · rfl
  · exact given_coordinates args v hv

theorem within_emitMusicPlay (scope : Scope) (args : Fields) :
    (scope.emitMusicPlay args).Within [.musicPlay] := by
  intro d hd
  obtain rfl := List.mem_singleton.mp hd
  refine ⟨List.mem_singleton.mpr rfl, rfl, fun v hv => ?_⟩
  simp only [List.mem_cons, List.not_mem_nil, or_false] at hv
  rcases hv with rfl | rfl <;> rfl

/-- Every draft of every kind of event is complete and has an opcode of its kind. -/
theorem within_recipe {scope : Scope} {kind : EventKind} {args : Fields} {r : Recipe}
    (h : scope.recipe kind args = .ok r) : r.Within kind.opcodes := by
  cases kind
  case text =>
    obtain ⟨index, -, rfl⟩ := emitText_ok.mp h
    exact Recipe.within_single rfl (given_word index)
  case setTrue | setFalse =>
    obtain ⟨index, -, rfl⟩ := emitFlag_ok.mp h
    exact Recipe.within_single rfl (given_word index)
  case cameraMoveTo => exact within_emitCamera rfl (given_coordinates args) h
  case cameraLock => exact within_emitCamera rfl (fun _ hv => absurd hv List.not_mem_nil) h
  case startBattle =>
    obtain ⟨number, -, rfl⟩ := emitStartBattle_ok.mp h
    exact within_battle _ number
  -- the other kinds cannot fail, so that their recipes can be read off
  all_goals obtain rfl := Except.ok.inj h
  case fadeIn | fadeOut => exact within_emitFade args rfl
  case cameraShake | wait => exact within_emitTicks args rfl
  case switchScene => exact scope.within_emitSwitchScene args
  case actorSetPosition | actorMoveTo =>
    exact scope.within_emitActiveActor args rfl (given_coordinates args)
  case actorSetDirection =>
    apply scope.within_emitActiveActor args rfl
    intro v hv
    obtain rfl := List.mem_singleton.mp hv
    rfl
  case actorEmote =>
    apply scope.within_emitActor args rfl
    intro v hv
    obtain rfl := List.mem_singleton.mp hv
    exact args.isNull_arg "emoteId" rfl
  case actorShow | actorHide =>
    exact scope.within_emitActor args rfl fun _ hv => absurd hv List.not_mem_nil
  case overlayShow => exact within_emitOverlayShow args
  case overlaySetPosition | overlayMoveTo => exact Recipe.within_single rfl (given_coordinates args)
  case awaitInput => exact Recipe.within_one rfl rfl
  case musicPlay => exact scope.within_emitMusicPlay args
  case listEnd | ifTrue | ifFalse => exact fun _ hd => absurd hd List.not_mem_nil
  case ifValue => exact Recipe.within_dropped _ _
  case showSprites | hideSprites | returnToTitle | overlayHide | musicStop | stop =>
    exact Recipe.within_bare rfl

theorem within_emit {scope : Scope} {kind : EventKind} {args : Fields} {e : Emission}
    (h : scope.emit kind args = .ok e) :
    ∀ d ∈ e.drafts, d.opcode ∈ kind.opcodes ∧ d.Complete := by
  obtain ⟨r, hr, hdrafts, -⟩ := emit_ok.mp h
  rw [hdrafts]
  exact within_recipe hr

/-- No event but a conditional emits an instruction that jumps. -/
theorem not_branch_of_emit {scope : Scope} {kind : EventKind} {args : Fields} {e : Emission}
    (h : scope.emit kind args = .ok e) {d : Draft} (hd : d ∈ e.drafts) :
    d.opcode ≠ .ifTrue ∧ d.opcode ≠ .jump := by
  have hop := (within_emit h d hd).1
  constructor
  all_goals
    intro heq
    rw [heq] at hop
    revert hop
    cases kind <;> decide

end Scope

end SceneScript
