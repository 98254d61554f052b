import SceneScript.Proofs.Duration
import SceneScript.Proofs.Failure

/-!
# Which scripts compile

Whether a script compiles can be told event by event, without laying anything out.
`Scope.Accepts` says for each kind what it asks of its arguments: a text or flag has to be in
its table, with an index of 16 bits; an operand that is passed on as the author gave it has to
be a byte; an index that is found has to fit the operand it goes into.  Nothing is asked where
generation falls back: a scene, track or actor that is gone, an encounter that is no number.
Times ask for nothing either, since a chunk of time always fits.

Integers may not be too long, though, where they are read from an encounter or quoted in the
warning about a fallback: `Scope.WithinLimits`.

What is asked of the whole is one thing only, that no conditional ends beyond 16 bits.

All events count that are laid out, those behind a stop too; bodies of an event that is no test
do not.
-/

namespace SceneScript

/-! ## Operands -/

/-- The value is an integer or a truth value, from 0 to the bound. -/
def Value.UpTo (v : Value) (bound : Int) : Prop := ∃ n, v.integer? = some n ∧ 0 ≤ n ∧ n ≤ bound

theorem Value.byte?_isSome_iff {v : Value} : v.byte?.isSome ↔ v.UpTo 255 := by
  unfold Value.byte? Value.UpTo
  cases v.integer? with
  | none => simp
  | some n => simp [Option.isSome_ite]

theorem Value.byte?_nat_isSome {n : Nat} : (Value.nat n).byte?.isSome ↔ n ≤ 255 := by
  rw [Value.byte?_int, Option.isSome_ite]

namespace Operand

theorem speedByte_le_iff (speed : Nat) : speedByte speed ≤ 255 ↔ speed ≤ 8 := by
  constructor
  · intro h
    apply Classical.byContradiction
    intro hfast
    have hpow : Nat.pow 2 9 ≤ Nat.pow 2 speed := Nat.pow_le_pow_right (by decide) (by omega)
    have hmask : Nat.pow 2 speed - 1 ≤ speedByte speed := Nat.left_le_or
    have hnine : Nat.pow 2 9 = 512 := rfl
    omega
  · intro h
    have hall : ∀ s ∈ List.range 9, speedByte s ≤ 255 := by decide
    exact hall speed (List.mem_range.mpr (by omega))

/-- The speed operand of a camera event is a byte just for the speeds up to 8. -/
theorem cameraSpeed_fits_iff {v : Value} :
    (∃ speed, cameraSpeed v = .ok speed ∧ speed.byte?.isSome) ↔ v.UpTo 8 := by
  unfold cameraSpeed
  cases h : v.integer? with
  | none =>
      simp only [Except.ok.injEq, exists_eq_left', Value.byte?_isSome_iff]
      simp [Value.UpTo, h]
  | some n =>
      by_cases hneg : n < 0
      · simp only [if_pos hneg, Except.ok.injEq, exists_eq_left', Value.byte?_isSome_iff,
          Value.UpTo, h, Option.some.injEq]
        omega
      · by_cases hshift : n ≤ shiftLimit
        · simp only [if_neg hneg, if_pos hshift, Except.ok.injEq, exists_eq_left',
            Value.byte?_nat_isSome, speedByte_le_iff, Value.UpTo, h, Option.some.injEq]
          omega
        · have hlimit : (8 : Int) ≤ shiftLimit := by decide
          simp only [if_neg hneg, if_neg hshift, reduceCtorEq, false_and, exists_false,
            Value.UpTo, h, Option.some.injEq, exists_eq_left', false_iff]
          omega

theorem lookup_le {table : List (String × Nat)} {bound default : Nat}
    (htable : ∀ entry ∈ table, entry.2 ≤ bound) (hdefault : default ≤ bound) (name : String) :
    (table.lookup name).getD default ≤ bound := by
  induction table with
  | nil => exact hdefault
  | cons entry rest ih =>
      obtain ⟨hentry, hrest⟩ := List.forall_mem_cons.mp htable
      obtain ⟨key, value⟩ := entry
      rw [List.lookup_cons]
      split
      · exact hentry
      · exact ih hrest

theorem direction_le (v : Value) : direction v ≤ 255 := by
  unfold direction
  split
  · exact lookup_le (by decide) (by decide) _
  · decide

theorem buttonBit_le (v : Value) : buttonBit v ≤ 255 := by
  unfold buttonBit
  split
  · exact lookup_le (by decide) (by decide) _
  · decide

theorem buttonMask_le (v : Value) : buttonMask v ≤ 255 := by
  have hfold : ∀ (names : List Value) (mask : Nat), mask ≤ 255 →
      names.foldl (fun mask name => mask ||| buttonBit name) mask ≤ 255 := by
    intro names
    induction names with
    | nil => exact fun _ h => h
    | cons name rest ih =>
        intro mask h
        have hbit := buttonBit_le name
        have hor : mask ||| buttonBit name < Nat.pow 2 8 :=
          Nat.or_lt_two_pow (Nat.lt_succ_of_le h) (Nat.lt_succ_of_le hbit)
        exact ih _ (Nat.le_of_lt_succ hor)
  unfold buttonMask
  split
  · dsimp only
    split
    · decide
    · exact hfold _ 0 (by decide)
  · exact lookup_le (by decide) (by decide) _
  · decide

end Operand

/-! ## What an event asks for -/

/-- The value is in the table, at an index of 16 bits. -/
def Listed (table : List Value) (wanted : Value) : Prop :=
  ∃ index, Value.indexIn? table wanted = some index ∧ index ≤ 0xffff

namespace Scope

/-- The coordinates of an event are bytes; those that do not count as given are zero. -/
def PositionFits (args : Fields) : Prop :=
  (args.arg "x" (.int 0)).UpTo 255 ∧ (args.arg "y" (.int 0)).UpTo 255

/-- The number of the actor is a byte, if the actor is in the scene. -/
def ActorFits (scope : Scope) (args : Fields) : Prop :=
  ∀ index, Symbols.entryIndex? scope.actors (args.get "actorId") = some index → index + 1 ≤ 255

/-- What an event of a kind asks of its arguments. -/
def Accepts (scope : Scope) (kind : EventKind) (args : Fields) : Prop :=
  match kind with
  | .text => Listed scope.symbols.strings (Symbols.storedText (args.get "text"))
  | .setTrue | .setFalse | .ifTrue | .ifFalse => Listed scope.symbols.flags (args.get "flag")
  | .fadeIn | .fadeOut => (args.arg "speed" (.int 1)).UpTo 255
  | .cameraMoveTo => PositionFits args ∧ (args.arg "speed" (.int 0)).UpTo 8
  | .cameraLock => (args.arg "speed" (.int 0)).UpTo 8
  | .switchScene =>
    ∀ index, Symbols.entryIndex? scope.symbols.scenes (args.get "sceneId") = some index →
      index ≤ 0xffff ∧ PositionFits args ∧ (args.arg "fadeSpeed" (.int 2)).UpTo 255
  | .startBattle =>
    ∀ n, Operand.encounter? (args.get "encounter") = some n → 0 ≤ n → n ≤ 255
  | .actorSetPosition | .actorMoveTo => scope.ActorFits args ∧ PositionFits args
  | .actorSetDirection | .actorShow | .actorHide => scope.ActorFits args
  | .actorEmote => scope.ActorFits args ∧ (args.arg "emoteId" (.int 0)).UpTo 255
  | .overlayShow | .overlaySetPosition | .overlayMoveTo => PositionFits args
  | .musicPlay =>
    ∀ index, Symbols.entryIndex? scope.symbols.music (args.get "musicId") = some index → index ≤ 255
  | .cameraShake | .wait | .showSprites | .hideSprites | .returnToTitle | .overlayHide | .awaitInput
  | .musicStop | .stop | .listEnd | .ifValue => True

/-- No integer in an event is too long: an encounter can be read, and what the event falls back
from can be told. -/
def WithinLimits (scope : Scope) (event : Event) : Prop :=
  (event.kind = .startBattle → Operand.Legible (event.args.get "encounter")) ∧
    ∀ cause, scope.fallback? event = some cause → cause.Short

end Scope

/-! ## Recipes that fit

One lemma a recipe: its operands are bytes just if the arguments are what the kind asks for. -/

/-- All operands of a recipe are bytes. -/
def Recipe.Fits (r : Recipe) : Prop := ∀ d ∈ r.drafts, d.Fits

/-- All operands of an emission are bytes. -/
def Emission.Fits (e : Emission) : Prop := ∀ d ∈ e.drafts, d.Fits

theorem Recipe.fits_single {opcode : Opcode} {operands : List Value} :
    (Recipe.single opcode operands).Fits ↔ ∀ v ∈ operands, v.byte?.isSome := by
  simp only [Recipe.Fits, Recipe.single, List.forall_mem_singleton, Draft.Fits]

theorem Recipe.fits_dropped (cause : Fallback) : (Recipe.dropped cause).Fits :=
  fun _ hd => absurd hd List.not_mem_nil

namespace Scope

theorem fits_coordinates {args : Fields} :
    (∀ v ∈ coordinates args, v.byte?.isSome) ↔ PositionFits args := by
  simp only [coordinates, List.forall_mem_cons, List.not_mem_nil, false_implies,
    implies_true, and_true, Value.byte?_isSome_iff, PositionFits]

theorem fits_actorNumber {scope : Scope} {args : Fields} :
    (Value.nat (scope.actorNumber args)).byte?.isSome ↔ scope.ActorFits args := by
  rw [Value.byte?_nat_isSome, actorNumber, Symbols.actorNumber, ActorFits]
  cases Symbols.entryIndex? scope.actors (args.get "actorId") with
  | none => simp
  | some index => simp

theorem fits_emitActor {scope : Scope} {opcode : Opcode} {args : Fields} {operands : List Value} :
    (scope.emitActor opcode args operands).Fits ↔
      scope.ActorFits args ∧ ∀ v ∈ operands, v.byte?.isSome := by
  simp only [Recipe.Fits, emitActor, List.forall_mem_singleton, Draft.Fits, List.forall_mem_cons,
    fits_actorNumber]

theorem fits_emitActiveActor {scope : Scope} {opcode : Opcode} {args : Fields}
    {operands : List Value} :
    (scope.emitActiveActor opcode args operands).Fits ↔
      scope.ActorFits args ∧ ∀ v ∈ operands, v.byte?.isSome := by
  simp only [Recipe.Fits, emitActiveActor, List.forall_mem_cons, List.not_mem_nil, false_implies,
    implies_true, and_true, Draft.Fits, fits_actorNumber]

theorem fits_emitTicks (opcode : Opcode) (args : Fields) : (emitTicks opcode args).Fits :=
  Seconds.fits_chunks _ opcode

theorem fits_emitSwitchScene {scope : Scope} {args : Fields} :
    (scope.emitSwitchScene args).Fits ↔ scope.Accepts .switchScene args := by
  unfold emitSwitchScene Accepts
  dsimp only
  cases Symbols.entryIndex? scope.symbols.scenes (args.get "sceneId") with
  | none => simp [Recipe.fits_dropped]
  | some index =>
      have hdirection : (Value.nat (Operand.direction (args.get "direction"))).byte?.isSome :=
        Value.byte?_nat_isSome.mpr (Operand.direction_le _)
      simp only [Option.some.injEq, forall_eq']
      rw [Recipe.fits_single, List.forall_mem_append, List.forall_mem_append, Operand.word_fits_iff,
        fits_coordinates, List.forall_mem_cons, List.forall_mem_singleton, and_iff_right hdirection,
        Value.byte?_isSome_iff, and_assoc]

theorem fits_battle {scope : Scope} {args : Fields} :
    (battle (args.get "encounter") (Operand.encounter? (args.get "encounter"))).Fits ↔
      scope.Accepts .startBattle args := by
  unfold battle Accepts
  dsimp only
  cases Operand.encounter? (args.get "encounter") with
  | none => simp [Recipe.fits_dropped]
  | some n =>
      by_cases hneg : n < 0
      · simp only [if_pos hneg, Recipe.fits_dropped, Option.some.injEq, forall_eq', true_iff]
        omega
      · simp only [if_neg hneg, Recipe.fits_single, List.forall_mem_singleton,
          Value.byte?_isSome_iff, Option.some.injEq, forall_eq']
        constructor
        · rintro ⟨m, hm, -, hle⟩ -
          cases hm
          exact hle
        · intro hle
          exact ⟨n, rfl, by omega, hle (by omega)⟩

theorem fits_emitMusicPlay {scope : Scope} {args : Fields} :
    (scope.emitMusicPlay args).Fits ↔ scope.Accepts .musicPlay args := by
  have hloop : (Value.nat (if (args.get "loop").truthy then 1 else 0)).byte?.isSome := by
    rw [Value.byte?_nat_isSome]
    split <;> decide
  simp only [Recipe.Fits, emitMusicPlay, List.forall_mem_cons, List.not_mem_nil,
    false_implies, implies_true, and_true, Draft.Fits, hloop, Value.byte?_nat_isSome,
    Symbols.trackIndex, Accepts]
  cases Symbols.entryIndex? scope.symbols.music (args.get "musicId") with
  | none => simp
  | some index => simp

theorem fits_emitOverlayShow {args : Fields} : (emitOverlayShow args).Fits ↔ PositionFits args := by
  have hcolor :
      (Value.nat (if (args.get "color").equals (.str "white") then 1 else 0)).byte?.isSome := by
    rw [Value.byte?_nat_isSome]
    split <;> decide
  rw [emitOverlayShow, Recipe.fits_single, List.forall_mem_cons, fits_coordinates]
  exact and_iff_right hcolor

theorem emitText_fits_iff {scope : Scope} {args : Fields} :
    (∃ r, scope.emitText args = .ok r ∧ r.Fits) ↔ scope.Accepts .text args := by
  unfold emitText Symbols.stringIndex Accepts Listed
  cases Value.indexIn? scope.symbols.strings (Symbols.storedText (args.get "text")) with
  | none => simp [bind, Except.bind]
  | some index =>
      simp [bind, Except.bind, pure, Except.pure, Recipe.fits_single, Operand.word_fits_iff]

theorem emitFlag_fits_iff {scope : Scope} {opcode : Opcode} {args : Fields} :
    (∃ r, scope.emitFlag opcode args = .ok r ∧ r.Fits) ↔
      Listed scope.symbols.flags (args.get "flag") := by
  unfold emitFlag Symbols.flagIndex Listed
  cases Value.indexIn? scope.symbols.flags (args.get "flag") with
  | none => simp [bind, Except.bind]
  | some index =>
      simp [bind, Except.bind, pure, Except.pure, Recipe.fits_single, Operand.word_fits_iff]

theorem emitCamera_fits_iff {opcode : Opcode} {args : Fields} {operands : List Value} :
    (∃ r, emitCamera opcode args operands = .ok r ∧ r.Fits) ↔
      (∀ v ∈ operands, v.byte?.isSome) ∧ (args.arg "speed" (.int 0)).UpTo 8 := by
  rw [← Operand.cameraSpeed_fits_iff]
  constructor
  · rintro ⟨_, hcamera, hfits⟩
    obtain ⟨speed, hspeed, rfl⟩ := emitCamera_ok.mp hcamera
    rw [Recipe.fits_single, List.forall_mem_append, List.forall_mem_singleton] at hfits
    exact ⟨hfits.1, speed, hspeed, hfits.2⟩
  · rintro ⟨hoperands, speed, hspeed, hbyte⟩
    refine ⟨_, emitCamera_ok.mpr ⟨speed, hspeed, rfl⟩, ?_⟩
    rw [Recipe.fits_single, List.forall_mem_append, List.forall_mem_singleton]
    exact ⟨hoperands, hbyte⟩

theorem emitStartBattle_fits_iff {scope : Scope} {args : Fields} :
    (∃ r, emitStartBattle args = .ok r ∧ r.Fits) ↔
      scope.Accepts .startBattle args ∧ Operand.Legible (args.get "encounter") := by
  rw [← fits_battle]
  constructor
  · rintro ⟨_, hbattle, hfits⟩
    obtain ⟨number, hnumber, rfl⟩ := emitStartBattle_ok.mp hbattle
    obtain ⟨hlegible, rfl⟩ := Operand.leadingInteger_ok.mp hnumber
    exact ⟨hfits, hlegible⟩
  · rintro ⟨hfits, hlegible⟩
    exact ⟨_, emitStartBattle_ok.mpr ⟨_, Operand.leadingInteger_ok.mpr ⟨hlegible, rfl⟩, rfl⟩, hfits⟩

/-- An event that is no test has a recipe with operands that fit just if its arguments are
accepted, and its encounter, if it has one, can be read. -/
theorem recipe_fits_iff {scope : Scope} {kind : EventKind} {args : Fields}
    (hkind : kind.isConditional = false) :
    (∃ r, scope.recipe kind args = .ok r ∧ r.Fits) ↔
      scope.Accepts kind args ∧ (kind = .startBattle → Operand.Legible (args.get "encounter")) := by
  have hok : ∀ recipe : Recipe,
      (∃ r, (Except.ok recipe : Except Fault Recipe) = .ok r ∧ r.Fits) ↔ recipe.Fits := by
    intro recipe
    simp only [Except.ok.injEq, exists_eq_left']
  by_cases hbattle : kind = .startBattle
  · subst hbattle
    rw [forall_prop_of_true rfl]
    exact emitStartBattle_fits_iff
  rw [and_iff_left fun h => absurd h hbattle]
  cases kind
  case text => exact emitText_fits_iff
  case setTrue | setFalse => exact emitFlag_fits_iff
  case cameraMoveTo => exact emitCamera_fits_iff.trans (and_congr_left' fits_coordinates)
  case cameraLock =>
    exact emitCamera_fits_iff.trans (and_iff_right fun _ hv => absurd hv List.not_mem_nil)
  case startBattle => exact absurd rfl hbattle
  case ifTrue | ifFalse => cases hkind
  all_goals refine (hok _).trans ?_
  case fadeIn | fadeOut => simp [emitFade, Recipe.fits_single, Value.byte?_isSome_iff, Accepts]
  case cameraShake | wait => exact iff_of_true (fits_emitTicks _ args) trivial
  case switchScene => exact fits_emitSwitchScene
  case actorSetPosition | actorMoveTo => rw [fits_emitActiveActor, fits_coordinates, Accepts]
  case actorSetDirection =>
    simp [fits_emitActiveActor, Value.byte?_nat_isSome, Operand.direction_le, Accepts]
  case actorEmote => simp [fits_emitActor, Value.byte?_isSome_iff, Accepts]
  case actorShow | actorHide => simp [fits_emitActor, Accepts]
  case overlayShow => exact fits_emitOverlayShow
  case overlaySetPosition | overlayMoveTo => rw [Recipe.fits_single, fits_coordinates, Accepts]
  case awaitInput =>
    simp [Recipe.fits_single, Value.byte?_nat_isSome, Operand.buttonMask_le, Accepts]
  case musicPlay => exact fits_emitMusicPlay
  case showSprites | hideSprites | returnToTitle | overlayHide | musicStop | stop =>
    simp [Recipe.fits_single, Accepts]
  case listEnd => exact iff_of_true (fun _ hd => absurd hd List.not_mem_nil) trivial
  case ifValue => exact iff_of_true (Recipe.fits_dropped _) trivial

/-- An event is emitted just if it has a recipe and its fallback can be told. -/
theorem emit_fits_iff {scope : Scope} {event : Event} :
    (∃ e, scope.emit event.kind event.args = .ok e ∧ e.Fits) ↔
      (∃ r, scope.recipe event.kind event.args = .ok r ∧ r.Fits) ∧
        ∀ cause, scope.fallback? event = some cause → cause.Short := by
  constructor
  · rintro ⟨e, hemit, hfits⟩
    obtain ⟨r, hr, hemission⟩ := result_bind_ok.mp hemit
    have hshort := Recipe.exists_emission.mp ⟨e, hemission⟩
    rw [fallbacks_recipe hr] at hshort
    rw [Emission.Fits, (Recipe.emission_ok.mp hemission).1] at hfits
    exact ⟨⟨r, hr, hfits⟩, fun cause hcause => hshort cause (Option.mem_toList.mpr hcause)⟩
  · rintro ⟨⟨r, hr, hfits⟩, hshort⟩
    have hemission : ∃ e, r.emission = .ok e := by
      rw [Recipe.exists_emission, fallbacks_recipe hr]
      exact fun cause hcause => hshort cause (Option.mem_toList.mp hcause)
    obtain ⟨e, he⟩ := hemission
    refine ⟨e, result_bind_ok.mpr ⟨r, hr, he⟩, ?_⟩
    rw [Emission.Fits, (Recipe.emission_ok.mp he).1]
    exact hfits

/-! ## Whole scripts -/

theorem flagIndex_fits_iff {scope : Scope} {args : Fields} :
    (∃ flag, Symbols.flagIndex scope.symbols.flags (args.get "flag") = .ok flag ∧ flag ≤ 0xffff) ↔
      Listed scope.symbols.flags (args.get "flag") := by
  unfold Symbols.flagIndex Listed
  cases Value.indexIn? scope.symbols.flags (args.get "flag") with
  | none => simp
  | some index => simp

/-- An event in its place asks for nothing that is not there: its arguments are accepted, if it
is a test, it ends within 16 bits, and no integer in it is too long. -/
def AcceptsAt (scope : Scope) (event : Event) (start : Nat) : Prop :=
  scope.Accepts event.kind event.args ∧
    (event.kind.isConditional = true → start + scope.eventWidth event ≤ 0xffff) ∧
    scope.WithinLimits event

theorem acceptsAt_leaf {scope : Scope} {event : Event} (hleaf : event.branches? = none)
    (start : Nat) :
    scope.AcceptsAt event start ↔ ∃ e, scope.emit event.kind event.args = .ok e ∧ e.Fits := by
  have hkind : event.kind.isConditional = false := by
    rw [event.isConditional_kind, hleaf]
    rfl
  rw [emit_fits_iff, recipe_fits_iff hkind, AcceptsAt, WithinLimits, hkind]
  simp [and_assoc]

/-- No integer of a test is ever too long: tests neither read nor fall back. -/
theorem withinLimits_test {scope : Scope} {event : Event} {bodies : Script × Script}
    (htest : event.branches? = some bodies) : scope.WithinLimits event := by
  unfold WithinLimits fallback?
  rcases Event.kind_of_test htest with hcase | hcase
  all_goals
    rw [hcase]
    exact ⟨fun h => (by cases h), fun _ h => (by cases h)⟩

theorem acceptsAt_test {scope : Scope} {event : Event} {bodies : Script × Script}
    (htest : event.branches? = some bodies) (start : Nat) :
    scope.AcceptsAt event start ↔
      (∃ flag, Symbols.flagIndex scope.symbols.flags (event.args.get "flag") = .ok flag ∧
        flag ≤ 0xffff) ∧
        start + scope.eventWidth event ≤ 0xffff := by
  have hkind : event.kind.isConditional = true := by
    rw [event.isConditional_kind, htest]
    rfl
  have haccepts : scope.Accepts event.kind event.args ↔
      Listed scope.symbols.flags (event.args.get "flag") := by
    rcases Event.kind_of_test htest with hcase | hcase
    all_goals
      rw [hcase]
      rfl
  rw [flagIndex_fits_iff, ← haccepts, AcceptsAt, hkind, forall_prop_of_true rfl,
    and_iff_left (withinLimits_test htest)]

/-- A script has a plan that fits at a base just if all its events are accepted where they stand. -/
theorem planned_fits_iff {scope : Scope} (script : Script) (base : Nat) :
    (∃ plan, Planned scope script plan ∧ ∀ d ∈ plan.drafts base, d.Fits) ↔
      ∀ event start, scope.Stands base script event start → scope.AcceptsAt event start := by
  induction script using Script.induction generalizing base with
  | nil =>
      refine iff_of_true ⟨.done, .nil, fun _ hd => absurd hd List.not_mem_nil⟩ ?_
      exact forall_stands_nil
  | leaf event rest hleaf ih =>
      rw [forall_stands_leaf hleaf, acceptsAt_leaf hleaf, ← ih, eventWidth_leaf hleaf]
      constructor
      · rintro ⟨plan, hplan, hfits⟩
        cases hplan with
        | leaf _ hemit hnext =>
            obtain ⟨hemission, hnextFits⟩ := Plan.fits_straight.mp hfits
            rw [leafWidth_ok hemit]
            exact ⟨⟨_, hemit, hemission⟩, _, hnext, hnextFits⟩
        | test htest =>
            rw [hleaf] at htest
            cases htest
      · rintro ⟨⟨emission, hemit, hemission⟩, next, hnext, hnextFits⟩
        rw [leafWidth_ok hemit] at hnextFits
        exact ⟨_, .leaf hleaf hemit hnext, Plan.fits_straight.mpr ⟨hemission, hnextFits⟩⟩
  | test event rest whenSet whenClear htest ihSet ihClear ih =>
      rw [forall_stands_test htest, acceptsAt_test htest, ← ih, ← ihSet, ← ihClear,
        eventWidth_test htest]
      constructor
      · rintro ⟨plan, hplan, hfits⟩
        cases hplan with
        | leaf hleaf =>
            rw [htest] at hleaf
            cases hleaf
        | test htest' hflag hset hclear hnext =>
            rw [htest] at htest'
            cases htest'
            obtain ⟨⟨hflagFits, -, hendAt⟩, hclearFits, hsetFits, hnextFits⟩ :=
              Plan.fits_test.mp hfits
            rw [hset.size_eq, hclear.size_eq] at hendAt hnextFits
            rw [hclear.size_eq] at hsetFits
            simp only [← Nat.add_assoc]
            exact ⟨⟨⟨_, hflag, hflagFits⟩, hendAt⟩, ⟨_, hclear, hclearFits⟩,
              ⟨_, hset, hsetFits⟩, _, hnext, hnextFits⟩
      · simp only [← Nat.add_assoc]
        rintro ⟨⟨⟨flag, hflag, hflagFits⟩, hendAt⟩, ⟨clear, hclear, hclearFits⟩,
          ⟨set, hset, hsetFits⟩, next, hnext, hnextFits⟩
        rw [← hclear.size_eq] at hsetFits
        rw [← hset.size_eq, ← hclear.size_eq] at hendAt hnextFits
        exact ⟨_, .test htest hflag hset hclear hnext,
          Plan.fits_test.mpr ⟨⟨hflagFits, by omega, hendAt⟩, hclearFits, hsetFits, hnextFits⟩⟩

/-- **Which scripts compile.**  Generation from empty output returns a program just if every
event that is laid out, wherever it stands, has arguments that its kind accepts, every test ends
within 16 bits, and no integer is too long that is read from an encounter or told in a warning.
Otherwise it fails: an event of the script cannot be emitted, for one of the four reasons in
`Refuses`, or the output does not fit.

Of times it is only said that they have chunks; the loop that produces them does not end for the
largest floats and for infinity.  Of camera speeds up to the shift limit it is said that the
output does not fit, also where memory runs out before there is such an output. -/
theorem generate_succeeds_iff (scope : Scope) (script : Script) :
    ((∃ program state, scope.generate script {} = .ok program state) ↔
      ∀ event start, scope.Stands 0 script event start →
        scope.Accepts event.kind event.args ∧
        (event.kind.isConditional = true → start + scope.eventWidth event ≤ 0xffff) ∧
        scope.WithinLimits event) ∧
    ∀ fault state, scope.generate script {} = .error fault state →
      (∃ event start, scope.Stands 0 script event start ∧ scope.Refuses event fault) ∨
      ∃ command args position value,
        fault = .compile (.outputFailed command args position value) := by
  constructor
  · refine Iff.trans ?_ (planned_fits_iff script 0)
    constructor
    · rintro ⟨program, state, h⟩
      obtain ⟨plan, hplan, hfits, -, -⟩ := generate_ok_iff.mp h
      exact ⟨plan, hplan, hfits⟩
    · rintro ⟨plan, hplan, hfits⟩
      exact ⟨_, _, generate_ok_iff.mpr ⟨plan, hplan, hfits, rfl, rfl⟩⟩
  · intro fault state h
    exact (fails_of_generate h).cause

end Scope

/-- A camera speed of 8 is accepted; one of 9 is not, even where it is never reached. -/
theorem generate_succeeds_iff_camera_speed :
    (∃ program state, nestedScope.generate
      [.plain .cameraLock [(.str "speed", .int 8)]] {} = .ok program state) ∧
    ¬ ∃ program state, nestedScope.generate
      [.plain .stop [], .plain .cameraLock [(.str "speed", .int 9)]] {} = .ok program state := by
  constructor
  · refine (Scope.generate_succeeds_iff nestedScope _).1.mpr ?_
    intro event start h
    cases h with
    | here =>
        refine ⟨⟨8, rfl, by decide, by decide⟩, ?_, ?_, ?_⟩
        · intro hkind
          cases hkind
        · intro hkind
          cases hkind
        · intro cause hcause
          cases hcause
    | inClear htest _ => cases htest
    | inSet htest _ => cases htest
    | later hrest => cases hrest
  · intro hok
    obtain ⟨⟨n, hn, -, hle⟩, -⟩ :=
      (Scope.generate_succeeds_iff nestedScope _).1.mp hok _ _ (.later .here)
    cases hn
    exact absurd hle (by decide)

/-- A speed for which there is no power of two is no fault of the output: generation stops
before it has written anything. -/
theorem generate_camera_overflow :
    nestedScope.generate [.plain .cameraLock [(.str "speed", .int 100000000000000000000)]] {} =
      .error .overflow {} := rfl

end SceneScript
