import SceneScript.Proofs.Denotation

/-!
# Tables may grow

A project adds strings, flags, scenes, tracks and actors while its scripts stay as they are.
What has been compiled must not change by this: an index that was the least one is still the
least one if entries are added behind it.  What may change is a name that was not found, so the
tables are compared for scripts that lost no actor, track or scene.  One look-up fails without a
loss: an event may name no actor at all.  It stays without one as long as the actors that are
added have ids.

The comparison is made on plans.  If a script has a plan without a loss, the same plan is its
plan in every scope that extends the first one, and a program and its warnings depend on nothing
but the plan.
-/

namespace SceneScript

/-! ## Extended tables -/

/-- The codes of the warnings for an actor, a track and a scene that are gone. -/
def Warning.lossCodes : List String := ["SC0001", "SC0002", "SC0003"]

/-- Actors are added behind those of a scene, and each of them has an id. -/
def Symbols.ActorsAdded (actors others : List Value) : Prop :=
  ∃ added, others = actors ++ added ∧ ∀ entry ∈ added, (entryId entry).isNull = false

/-- `others.Extends symbols scene`: the tables were extended behind their ends, and the actors
of the scene by actors that have ids.  The actors of other scenes may be any. -/
structure Symbols.Extends (others symbols : Symbols) (scene : Value) : Prop where
  strings : symbols.strings <+: others.strings
  flags : symbols.flags <+: others.flags
  scenes : symbols.scenes <+: others.scenes
  music : symbols.music <+: others.music
  actors : ∀ actors, symbols.sceneActors scene = .ok actors →
    ∃ more, others.sceneActors scene = .ok more ∧ Symbols.ActorsAdded actors more

/-- The same of scopes, where the scene has been looked up. -/
structure Scope.Extends (other scope : Scope) : Prop where
  strings : scope.symbols.strings <+: other.symbols.strings
  flags : scope.symbols.flags <+: other.symbols.flags
  scenes : scope.symbols.scenes <+: other.symbols.scenes
  music : scope.symbols.music <+: other.symbols.music
  actors : Symbols.ActorsAdded scope.actors other.actors

/-! ## Look-ups -/

theorem Value.eq_null_of_isNull {v : Value} (h : v.isNull = true) : v = .null := by
  unfold Value.isNull at h
  split at h
  · rfl
  · cases h

/-- Nothing but null is equal to null. -/
theorem Value.equals_null {v : Value} (h : v.isNull = false) : v.equals .null = false := by
  cases v with
  | scalar s =>
      cases s with
      | null => cases h
      | _ => rfl
  | list items => rfl
  | object fields => rfl

namespace Symbols

theorem stringIndex_extends {strings others : List Value} (hext : strings <+: others)
    {text : Value} {n : Nat} (h : stringIndex strings text = .ok n) :
    stringIndex others text = .ok n :=
  stringIndex_ok_iff.mpr (hext.findIdx?_eq_some (stringIndex_ok_iff.mp h))

theorem flagIndex_extends {flags others : List Value} (hext : flags <+: others)
    {flag : Value} {n : Nat} (h : flagIndex flags flag = .ok n) : flagIndex others flag = .ok n :=
  flagIndex_ok_iff.mpr (hext.findIdx?_eq_some (flagIndex_ok_iff.mp h))

theorem entryIndex?_extends {entries others : List Value} (hext : entries <+: others)
    {id : Value} {n : Nat} (h : entryIndex? entries id = some n) : entryIndex? others id = some n :=
  hext.findIdx?_eq_some h

/-- An actor that is found, and no actor at all, are numbered as before. -/
theorem actorNumber_extends {actors others : List Value} (hext : ActorsAdded actors others)
    {id : Value} (h : actorNumber actors id = 0 → id.isNull = true) :
    actorNumber others id = actorNumber actors id := by
  obtain ⟨added, rfl, hadded⟩ := hext
  cases hindex : entryIndex? actors id with
  | some n =>
      rw [actorNumber, actorNumber, entryIndex?_extends (List.prefix_append _ _) hindex, hindex]
  | none =>
      have hnull : id = .null := Value.eq_null_of_isNull (h (by rw [actorNumber, hindex]))
      subst hnull
      have hnone : entryIndex? added .null = none :=
        List.findIdx?_eq_none_iff.mpr fun entry hentry => Value.equals_null (hadded entry hentry)
      have hboth : entryIndex? (actors ++ added) .null = none := by
        rw [entryIndex?] at hindex hnone ⊢
        rw [List.findIdx?_append, hindex, hnone]
        rfl
      rw [actorNumber, actorNumber, hboth, hindex]

end Symbols

/-! ## Recipes

One lemma a recipe: if it lost nothing, it is what it was. -/

/-- No actor, track or scene is lost by the fallbacks. -/
def Fallback.NoneLost (fallbacks : List Fallback) : Prop :=
  ∀ cause ∈ fallbacks, cause.code ∉ Warning.lossCodes

/-- No actor, track or scene was lost. -/
def Lossless (warnings : List Warning) : Prop := ∀ w ∈ warnings, w.code ∉ Warning.lossCodes

theorem Fallback.not_noneLost {cause : Fallback} (h : cause.code ∈ Warning.lossCodes) :
    ¬ Fallback.NoneLost [cause] :=
  fun hloss => hloss cause List.mem_cons_self h

theorem Recipe.noneLost_of_lossless {r : Recipe} {e : Emission} (h : r.emission = .ok e)
    (hloss : Lossless e.warnings) : Fallback.NoneLost r.fallbacks := by
  intro cause hcause
  rw [← (Recipe.emission_ok.mp h).2] at hcause
  obtain ⟨w, hw, rfl⟩ := List.mem_map.mp hcause
  exact hloss w hw

namespace Scope

open Fallback

variable {scope other : Scope} {args : Fields}

theorem emitText_extends (hext : other.Extends scope) {r : Recipe}
    (h : scope.emitText args = .ok r) : other.emitText args = .ok r := by
  obtain ⟨n, hindex, rfl⟩ := emitText_ok.mp h
  exact emitText_ok.mpr ⟨n, Symbols.stringIndex_extends hext.strings hindex, rfl⟩

theorem emitFlag_extends (hext : other.Extends scope) {opcode : Opcode} {r : Recipe}
    (h : scope.emitFlag opcode args = .ok r) : other.emitFlag opcode args = .ok r := by
  obtain ⟨n, hindex, rfl⟩ := emitFlag_ok.mp h
  exact emitFlag_ok.mpr ⟨n, Symbols.flagIndex_extends hext.flags hindex, rfl⟩

theorem emitSwitchScene_extends (hext : other.Extends scope)
    (hloss : NoneLost (scope.emitSwitchScene args).fallbacks) :
    other.emitSwitchScene args = scope.emitSwitchScene args := by
  rw [emitSwitchScene] at hloss
  cases hindex : Symbols.entryIndex? scope.symbols.scenes (args.get "sceneId") with
  | none =>
      simp only [hindex] at hloss
      exact absurd hloss (not_noneLost (show "SC0003" ∈ Warning.lossCodes by decide))
  | some n =>
      rw [emitSwitchScene, emitSwitchScene, Symbols.entryIndex?_extends hext.scenes hindex, hindex]

theorem emitMusicPlay_extends (hext : other.Extends scope)
    (hloss : NoneLost (scope.emitMusicPlay args).fallbacks) :
    other.emitMusicPlay args = scope.emitMusicPlay args := by
  rw [emitMusicPlay] at hloss
  cases hindex : Symbols.entryIndex? scope.symbols.music (args.get "musicId") with
  | none =>
      simp only [hindex] at hloss
      exact absurd hloss (not_noneLost (show "SC0002" ∈ Warning.lossCodes by decide))
  | some n =>
      rw [emitMusicPlay, emitMusicPlay, Symbols.trackIndex, Symbols.trackIndex,
        Symbols.entryIndex?_extends hext.music hindex, hindex]

theorem actorNumber_extends (hext : other.Extends scope)
    (hloss : NoneLost (scope.actorFallbacks args)) :
    other.actorNumber args = scope.actorNumber args := by
  refine Symbols.actorNumber_extends hext.actors ?_
  intro hzero
  cases hnull : (args.get "actorId").isNull with
  | true => rfl
  | false =>
      have hlost : scope.actorNumber args = 0 ∧ !(args.get "actorId").isNull :=
        ⟨hzero, by rw [hnull]; rfl⟩
      rw [actorFallbacks, if_pos hlost] at hloss
      exact absurd hloss (not_noneLost (show "SC0001" ∈ Warning.lossCodes by decide))

theorem actorFallbacks_extends (hext : other.Extends scope)
    (hloss : NoneLost (scope.actorFallbacks args)) :
    other.actorFallbacks args = scope.actorFallbacks args := by
  rw [actorFallbacks, actorFallbacks, actorNumber_extends hext hloss]

theorem emitActor_extends (hext : other.Extends scope) {opcode : Opcode} {operands : List Value}
    (hloss : NoneLost (scope.emitActor opcode args operands).fallbacks) :
    other.emitActor opcode args operands = scope.emitActor opcode args operands := by
  rw [emitActor, emitActor, actorNumber_extends hext hloss, actorFallbacks_extends hext hloss]

theorem emitActiveActor_extends (hext : other.Extends scope) {opcode : Opcode}
    {operands : List Value}
    (hloss : NoneLost (scope.emitActiveActor opcode args operands).fallbacks) :
    other.emitActiveActor opcode args operands = scope.emitActiveActor opcode args operands := by
  rw [emitActiveActor, emitActiveActor, actorNumber_extends hext hloss,
    actorFallbacks_extends hext hloss]

/-- All kinds: an event that lost nothing has the recipe it had. -/
theorem recipe_extends (hext : other.Extends scope) {kind : EventKind} {r : Recipe}
    (h : scope.recipe kind args = .ok r) (hloss : NoneLost r.fallbacks) :
    other.recipe kind args = .ok r := by
  cases kind
  case text => exact emitText_extends hext h
  case setTrue | setFalse => exact emitFlag_extends hext h
  case switchScene =>
      cases h
      exact congrArg Except.ok (emitSwitchScene_extends hext hloss)
  case actorSetPosition | actorSetDirection | actorMoveTo =>
      cases h
      exact congrArg Except.ok (emitActiveActor_extends hext hloss)
  case actorEmote | actorShow | actorHide =>
      cases h
      exact congrArg Except.ok (emitActor_extends hext hloss)
  case musicPlay =>
      cases h
      exact congrArg Except.ok (emitMusicPlay_extends hext hloss)
  all_goals exact h

theorem emit_extends (hext : other.Extends scope) {kind : EventKind} {e : Emission}
    (h : scope.emit kind args = .ok e) (hloss : Lossless e.warnings) :
    other.emit kind args = .ok e := by
  obtain ⟨r, hr, hemission⟩ := result_bind_ok.mp h
  exact result_bind_ok.mpr
    ⟨r, recipe_extends hext hr (Recipe.noneLost_of_lossless hemission hloss), hemission⟩

end Scope

/-! ## Scripts -/

/-- A plan that lost nothing is the plan in every scope that extends the first one. -/
theorem Planned.extends {scope other : Scope} (hext : other.Extends scope)
    {script : Script} {plan : Plan} (h : Planned scope script plan)
    (hloss : Lossless plan.warnings) : Planned other script plan := by
  induction h with
  | nil => exact .nil
  | leaf hleaf hemit _ ih =>
      obtain ⟨hemission, hnext⟩ := List.forall_mem_append.mp hloss
      exact .leaf hleaf (Scope.emit_extends hext hemit hemission) (ih hnext)
  | test htest hflag _ _ _ ihSet ihClear ih =>
      obtain ⟨hbodies, hnext⟩ := List.forall_mem_append.mp hloss
      obtain ⟨hclear, hset⟩ := List.forall_mem_append.mp hbodies
      exact .test htest (Symbols.flagIndex_extends hext.flags hflag) (ihSet hset)
        (ihClear hclear) (ih hnext)

theorem Scope.generate_extends {scope other : Scope} (hext : other.Extends scope) {script : Script}
    {program : Program} {state : Generator} (h : scope.generate script {} = .ok program state)
    (hloss : Lossless state.warnings) : other.generate script {} = .ok program state := by
  obtain ⟨plan, hplan, hfits, rfl, rfl⟩ := Scope.generate_ok_iff.mp h
  exact Scope.generate_ok_iff.mpr ⟨plan, hplan.extends hext hloss, hfits, rfl, rfl⟩

/-! ## Jobs -/

/-- A job runs as its script does against its tables. -/
theorem Job.run_of_read {job : Job} {script : Script} {symbols : Symbols}
    (h : job.read = .ok (script, symbols)) :
    job.run = Compilation.compileScript script symbols := by
  cases job with
  | events events tables =>
      cases h
      rfl
  | values value tables =>
      obtain ⟨events, hscript, h⟩ := result_bind_ok.mp h
      obtain ⟨read, htables, h⟩ := result_bind_ok.mp h
      cases h
      rw [Job.run, Compilation.compileValues, hscript, htables]
      rfl

theorem Job.warnings_of_generate {job : Job} {script : Script} {symbols : Symbols} {scene : Value}
    {scope : Scope} {program : Program} {state : Generator} (htold : SceneTold scene)
    (hread : job.read = .ok (script, symbols)) (hscope : Scope.ofScene symbols scene = .ok scope)
    (h : scope.generate script {} = .ok program state) : job.warnings scene = state.warnings := by
  have hprepare : job.prepare scene = .ok (scope, script) :=
    Job.prepare_ok.mpr ⟨htold, symbols, hread, hscope⟩
  rw [Job.warnings, hprepare]
  dsimp only
  rw [stateAfter_ok h]

/-- **Tables may grow.**  If a job compiles and loses no actor, track or scene, then the same
script against tables that were extended compiles too, to the same program, with the same
warnings and the same transcript. -/
theorem Job.run_extends {job other : Job} {script : Script} {symbols others : Symbols}
    {session after : Session} {program : Program} (hread : job.read = .ok (script, symbols))
    (hother : other.read = .ok (script, others)) (hext : others.Extends symbols session.scene)
    (h : job.run session = .ok program after) (hloss : Lossless (job.warnings session.scene)) :
    other.run session = .ok program after ∧
      other.warnings session.scene = job.warnings session.scene := by
  have halone := Session.alone_of_run h
  have htold := Job.alone_told halone
  obtain ⟨script, symbols, scope, state, hread', hscope, hgenerate⟩ := Job.alone_ok halone
  obtain ⟨rfl, rfl⟩ := Prod.mk.inj (Except.ok.inj (hread.symm.trans hread'))
  obtain ⟨actors, hactors, hreturn⟩ := result_bind_ok.mp hscope
  cases hreturn
  obtain ⟨more, hmore, hadded⟩ := hext.actors actors hactors
  have hscope' : Scope.ofScene others session.scene = .ok ⟨others, more⟩ := by
    rw [Scope.ofScene, hmore]
    rfl
  have hscopes : Scope.Extends ⟨others, more⟩ ⟨symbols, actors⟩ :=
    ⟨hext.strings, hext.flags, hext.scenes, hext.music, hadded⟩
  have hwarnings := Job.warnings_of_generate htold hread hscope hgenerate
  have hgenerate' := Scope.generate_extends hscopes hgenerate (hwarnings ▸ hloss)
  refine ⟨?_, ?_⟩
  · obtain ⟨message, hmessage⟩ := (told_startMessage session.scene script).ok_iff.mpr htold
    rw [Job.run_of_read hread, Compilation.compileScript_run hmessage hscope, hgenerate] at h
    rw [Job.run_of_read hother, Compilation.compileScript_run hmessage hscope', hgenerate', h]
  · rw [Job.warnings_of_generate htold hother hscope' hgenerate', hwarnings]

/-! ## A yard that grows -/

/-- If the door is set the guard appears, else whoever runs the script is hidden; then a battle
that is none. -/
def yardScript : Script :=
  [.whenSet (.str "door") [.plain .actorShow [(.str "actorId", .str "guard")]]
    [.plain .actorHide []], .plain .startBattle []]

def yardSymbols : Symbols where
  flags := [.str "door"]
  actors := [(.str "yard", [.str "guard"])]

/-- The project has grown: a first string, scene and track, a gate and a second door, two more
actors in the yard, one with the id of the guard, and a scene with a guard of its own. -/
def grownSymbols : Symbols where
  strings := [.str "Halt"]
  flags := [.str "door", .str "gate", .str "door"]
  scenes := [.str "yard"]
  music := [.str "march"]
  actors := [(.str "castle", [.str "guard"]),
    (.str "yard", [.str "guard", .str "captain", .object [(.str "id", .str "guard")]])]

theorem grown_extends : grownSymbols.Extends yardSymbols (.str "yard") where
  strings := List.nil_prefix
  flags := List.prefix_append [_] _
  scenes := List.nil_prefix
  music := List.nil_prefix
  actors := by
    intro actors hactors
    cases hactors
    exact ⟨_, rfl, [.str "captain", .object [(.str "id", .str "guard")]], rfl, by decide⟩

theorem run_extends_yard :
    ∃ program after, (Job.events yardScript yardSymbols).run { scene := .str "yard" } =
      .ok program after ∧
      (Job.events yardScript grownSymbols).run { scene := .str "yard" } = .ok program after ∧
      after.warnings = ["SC0004: Invalid encounter None, battle dropped"] := by
  obtain ⟨program, after, h, hafter⟩ : ∃ program after,
      (Job.events yardScript yardSymbols).run { scene := .str "yard" } = .ok program after ∧
        after.warnings = ["SC0004: Invalid encounter None, battle dropped"] := by
    have hrun := @Compilation.compileScript_run yardScript yardSymbols
      { scene := .str "yard" } _ _ rfl rfl
    exact ⟨_, _, hrun, rfl⟩
  have hloss : Lossless ((Job.events yardScript yardSymbols).warnings (.str "yard")) := by
    unfold Lossless
    decide
  obtain ⟨hgrown, -⟩ :=
    @Job.run_extends _ (.events yardScript grownSymbols) _ _ _ _ _ _ rfl rfl grown_extends h hloss
  exact ⟨program, after, h, hgrown, hafter⟩

end SceneScript
