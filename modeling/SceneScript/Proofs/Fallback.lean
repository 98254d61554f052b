import SceneScript.Proofs.Emission
import SceneScript.Script.Event

/-!
# Which events fall back

Five sorts of events are laid out otherwise than they ask for: an event without code, a scene or
track that is not in its table, an encounter that is no natural number, an actor that is not in
the scene.  `Scope.fallback?` says which, from the event and the tables alone, and however long
the integers in the event are.  The recipe of an event has this fallback and no other.

An encounter has to be read before it can be judged, and reading may fail, for the number of
digits.  `Operand.Legible` says when it does not.
-/

namespace SceneScript

/-! ## Encounters -/

namespace Text

theorem leadingInteger_none {chars : List Char} (h : leadingNumeral? chars = none) :
    leadingInteger chars = .ok none := by
  rw [leadingInteger, h]

theorem leadingInteger_some {chars : List Char} {numeral : SignedDigits}
    (h : leadingNumeral? chars = some numeral) (hlength : numeral.digits.length ≤ digitLimit) :
    leadingInteger chars = .ok (some numeral.value) := by
  rw [leadingInteger, h]
  show numeral.read.map some = _
  rw [SignedDigits.read, if_pos hlength]
  rfl

theorem leadingInteger_tooLong {chars : List Char} {numeral : SignedDigits}
    (h : leadingNumeral? chars = some numeral) (hlength : digitLimit < numeral.digits.length) :
    leadingInteger chars = .error (.toRead numeral.digits.length) := by
  rw [leadingInteger, h]
  show numeral.read.map some = _
  rw [SignedDigits.read, if_neg (Nat.not_le.mpr hlength)]
  rfl

end Text

namespace Operand

/-- The integer that an encounter starts with, however many digits it has. -/
def encounter? : Value → Option Int
  | .int n => some n
  | .float x => x.truncate?
  | .str s => (Text.leadingNumeral? s.toList).map Text.SignedDigits.value
  | _ => none

/-- An encounter can be read: the numeral that a text starts with has not too many digits, and a
list or an object has a text, in which to look for one. -/
def Legible : Value → Prop
  | .str s =>
      ∀ numeral, Text.leadingNumeral? s.toList = some numeral → numeral.digits.length ≤ digitLimit
  | .scalar _ => True
  | v => v.Short

/-! A list or an object is looked at as a text, and there is no number in that. -/

theorem limited_display_of_short {v : Value} (h : v.Short) :
    Fault.limited (v.display.map fun _ => (none : Option Int)) = .ok none := by
  obtain ⟨text, htext⟩ := v.told_display.ok_iff.mpr h
  rw [htext]
  rfl

theorem limited_display_of_not_short {v : Value} (h : ¬ v.Short) :
    Fault.limited (v.display.map fun _ => (none : Option Int)) =
      .error (.malformed (.tooManyDigits .toWrite)) := by
  rw [v.told_display.error_iff.mpr ⟨rfl, h⟩]
  rfl

/-- An encounter that can be read gives its number. -/
theorem leadingInteger_of_legible {v : Value} (h : Legible v) :
    leadingInteger v = .ok (encounter? v) := by
  cases v with
  | scalar s =>
      cases s with
      | str text =>
          show Fault.limited (Text.leadingInteger text.toList) = .ok (Option.map _ _)
          cases hnumeral : Text.leadingNumeral? text.toList with
          | none =>
              rw [Text.leadingInteger_none hnumeral]
              rfl
          | some numeral =>
              rw [Text.leadingInteger_some hnumeral (h numeral hnumeral)]
              rfl
      | _ => rfl
  | list items => exact limited_display_of_short h
  | object fields => exact limited_display_of_short h

/-- One that cannot be read fails, for the number of its digits. -/
theorem leadingInteger_of_not_legible {v : Value} (h : ¬ Legible v) :
    ∃ e, leadingInteger v = .error (.malformed (.tooManyDigits e)) := by
  cases v with
  | scalar s =>
      cases s with
      | str text =>
          obtain ⟨numeral, hnumeral, hlong⟩ : ∃ numeral,
              Text.leadingNumeral? text.toList = some numeral ∧
              digitLimit < numeral.digits.length := by
            apply Classical.byContradiction
            intro hnone
            exact h fun numeral hnumeral =>
              Nat.le_of_not_lt fun hlong => hnone ⟨numeral, hnumeral, hlong⟩
          refine ⟨.toRead numeral.digits.length, ?_⟩
          show Fault.limited (Text.leadingInteger text.toList) = _
          rw [Text.leadingInteger_tooLong hnumeral hlong]
          rfl
      | _ => exact absurd trivial h
  | list items => exact ⟨.toWrite, limited_display_of_not_short h⟩
  | object fields => exact ⟨.toWrite, limited_display_of_not_short h⟩

theorem leadingInteger_ok {v : Value} {number : Option Int} :
    leadingInteger v = .ok number ↔ Legible v ∧ number = encounter? v := by
  by_cases h : Legible v
  · rw [leadingInteger_of_legible h, Except.ok.injEq, and_iff_right h, eq_comm]
  · obtain ⟨e, he⟩ := leadingInteger_of_not_legible h
    rw [he]
    exact iff_of_false (fun hok => by cases hok) fun hok => h hok.1

theorem leadingInteger_error {v : Value} {fault : Fault} (h : leadingInteger v = .error fault) :
    ¬ Legible v ∧ ∃ e, fault = .malformed (.tooManyDigits e) := by
  by_cases hlegible : Legible v
  · rw [leadingInteger_of_legible hlegible] at h
    cases h
  · obtain ⟨e, he⟩ := leadingInteger_of_not_legible hlegible
    rw [he] at h
    cases h
    exact ⟨hlegible, e, rfl⟩

/-- An encounter that is a minus and so many nines. -/
def minusNines (count : Nat) : Value := .str (String.ofList ('-' :: List.replicate count '9'))

theorem leadingNumeral?_minusNines {count : Nat} (h : 0 < count) :
    Text.leadingNumeral? (String.ofList ('-' :: List.replicate count '9')).toList =
      some ⟨true, List.replicate count '9'⟩ := by
  have hblank : ('-' :: List.replicate count '9').dropWhile Text.isBlank =
      '-' :: List.replicate count '9' := rfl
  have hdigits : (List.replicate count '9').takeWhile Text.isDecimalDigit =
      List.replicate count '9' := by
    rw [List.takeWhile_replicate]
    exact if_pos (by decide)
  have hsome : List.replicate count '9' ≠ [] := by
    rw [Ne, List.replicate_eq_nil_iff]
    omega
  rw [String.toList_ofList, Text.leadingNumeral?, hblank]
  show Option.map _ (Text.leadingDigits? _) = _
  rw [Text.leadingDigits?, hdigits]
  split
  · exact absurd ‹_› hsome
  · rfl

/-- Nines beyond the limit cannot be read. -/
theorem not_legible_minusNines {count : Nat} (h : digitLimit < count) :
    ¬ Legible (minusNines count) := by
  intro hlegible
  have hnumeral := leadingNumeral?_minusNines (Nat.lt_trans (by decide) h)
  have hshort := hlegible _ hnumeral
  rw [List.length_replicate] at hshort
  exact absurd h (Nat.not_lt.mpr hshort)

/-- They stand for a negative number all the same. -/
theorem encounter?_minusNines {count : Nat} (h : 0 < count) :
    (encounter? (minusNines count)).any (0 ≤ ·) = false := by
  have hnumeral := leadingNumeral?_minusNines h
  have hgrows : ∀ (digits : List Char) (n : Nat),
      n ≤ digits.foldl (fun n c => 10 * n + (Text.digitValue? c).getD 0) n := by
    intro digits
    induction digits with
    | nil => exact fun n => Nat.le_refl n
    | cons c rest ih =>
        exact fun n => Nat.le_trans (by omega) (ih (10 * n + (Text.digitValue? c).getD 0))
  have hpositive : 0 < Text.digitsValue (List.replicate count '9') := by
    obtain ⟨fewer, rfl⟩ : ∃ fewer, count = fewer + 1 := ⟨count - 1, by omega⟩
    exact Nat.lt_of_lt_of_le (by decide) (hgrows (List.replicate fewer '9') 9)
  show (Option.map _ (Text.leadingNumeral? _)).any _ = false
  rw [hnumeral]
  show decide (0 ≤ -(Text.digitsValue (List.replicate count '9') : Int)) = false
  exact decide_eq_false (by omega)

end Operand

/-! ## The fallback of an event -/

namespace Symbols

/-- The entry has the id. -/
def hasId (id entry : Value) : Bool := (entryId entry).equals id

/-- The fallback for an id, if no entry of a table has it. -/
def unlisted (entries : List Value) (cause : Value → Fallback) (id : Value) : Option Fallback :=
  if entries.any (hasId id) then none else some (cause id)

theorem any_hasId (entries : List Value) (id : Value) :
    entries.any (hasId id) = (entryIndex? entries id).isSome := by
  rw [entryIndex?, List.findIdx?_isSome]
  rfl

theorem entryIndex?_of_unlisted {entries : List Value} {id : Value}
    (h : (!entries.any (hasId id)) = true) : entryIndex? entries id = none := by
  rw [any_hasId, Bool.not_eq_true', Option.isSome_eq_false_iff, Option.isNone_iff_eq_none] at h
  exact h

theorem unlisted_eq (entries : List Value) (cause : Value → Fallback) (id : Value) :
    unlisted entries cause id =
      if (entryIndex? entries id).isSome then none else some (cause id) := by
  rw [unlisted, any_hasId]

theorem unlisted_some {entries : List Value} {cause : Value → Fallback} {id : Value}
    {found : Fallback} (h : unlisted entries cause id = some found) :
    entries.any (hasId id) = false ∧ found = cause id := by
  rw [unlisted] at h
  split at h
  · cases h
  · rename_i hnone
    cases h
    exact ⟨Bool.eq_false_iff.mpr hnone, rfl⟩

theorem actorNumber_eq_zero {actors : List Value} {id : Value} :
    actorNumber actors id = 0 ↔ entryIndex? actors id = none := by
  rw [actorNumber]
  cases entryIndex? actors id with
  | none => simp
  | some index => simp

end Symbols

/-- The fallback of an event: it has no code; its scene or its track is not in the table; its
encounter is not a natural number; it names an actor that is not in the scene. -/
def Scope.fallback? (scope : Scope) (event : Event) : Option Fallback :=
  match event.kind with
  | .ifValue => some (.noBytecode .ifValue)
  | .switchScene => Symbols.unlisted scope.symbols.scenes .sceneNotFound (event.args.get "sceneId")
  | .startBattle =>
    if (Operand.encounter? (event.args.get "encounter")).any (0 ≤ ·) then none
    else some (.invalidEncounter (event.args.get "encounter"))
  | .musicPlay => Symbols.unlisted scope.symbols.music .musicNotFound (event.args.get "musicId")
  | .actorSetPosition | .actorSetDirection | .actorMoveTo | .actorEmote | .actorShow | .actorHide =>
    if (event.args.get "actorId").isNull then none
    else Symbols.unlisted scope.actors .actorNotInScene (event.args.get "actorId")
  | _ => none

/-- The kinds of events that may fall back, each with the code of its fallback. -/
def Fallback.codes : List (EventKind × String) :=
  [(.actorSetPosition, "SC0001"), (.actorSetDirection, "SC0001"), (.actorMoveTo, "SC0001"),
   (.actorEmote, "SC0001"), (.actorShow, "SC0001"), (.actorHide, "SC0001"), (.musicPlay, "SC0002"),
   (.switchScene, "SC0003"), (.startBattle, "SC0004"), (.ifValue, "SC0005")]

namespace Scope

/-- `scope.FallsBack event cause`: the event falls back, and `cause` says to what. -/
inductive FallsBack (scope : Scope) (event : Event) : Fallback → Prop
  | code : event.kind = .ifValue → FallsBack scope event (.noBytecode .ifValue)
  | scene : event.kind = .switchScene →
      scope.symbols.scenes.any (Symbols.hasId (event.args.get "sceneId")) = false →
      FallsBack scope event (.sceneNotFound (event.args.get "sceneId"))
  | encounter : event.kind = .startBattle →
      (Operand.encounter? (event.args.get "encounter")).any (0 ≤ ·) = false →
      FallsBack scope event (.invalidEncounter (event.args.get "encounter"))
  | track : event.kind = .musicPlay →
      scope.symbols.music.any (Symbols.hasId (event.args.get "musicId")) = false →
      FallsBack scope event (.musicNotFound (event.args.get "musicId"))
  | actor : event.kind ∈ [.actorSetPosition, .actorSetDirection, .actorMoveTo,
        .actorEmote, .actorShow, .actorHide] →
      (event.args.get "actorId").isNull = false →
      scope.actors.any (Symbols.hasId (event.args.get "actorId")) = false →
      FallsBack scope event (.actorNotInScene (event.args.get "actorId"))

variable {scope : Scope}

theorem fallsBack_of_fallback? {event : Event} {cause : Fallback}
    (h : scope.fallback? event = some cause) : scope.FallsBack event cause := by
  rw [fallback?] at h
  split at h
  case h_1 hkind =>
    cases h
    exact .code hkind
  case h_2 hkind =>
    obtain ⟨hnone, rfl⟩ := Symbols.unlisted_some h
    exact .scene hkind hnone
  case h_3 hkind =>
    split at h
    · cases h
    · rename_i hnone
      cases h
      exact .encounter hkind (Bool.eq_false_iff.mpr hnone)
  case h_4 hkind =>
    obtain ⟨hnone, rfl⟩ := Symbols.unlisted_some h
    exact .track hkind hnone
  case h_11 => cases h
  all_goals
    rename_i hkind
    split at h
    · cases h
    · rename_i hnull
      obtain ⟨hnone, rfl⟩ := Symbols.unlisted_some h
      exact .actor (by rw [hkind]; decide) (Bool.eq_false_iff.mpr hnull) hnone

theorem code_of_fallback? {event : Event} {cause : Fallback}
    (h : scope.fallback? event = some cause) : (event.kind, cause.code) ∈ Fallback.codes := by
  cases fallsBack_of_fallback? h with
  | code hkind => rw [hkind]; decide
  | scene hkind => rw [hkind, Fallback.code]; decide
  | encounter hkind => rw [hkind, Fallback.code]; decide
  | track hkind => rw [hkind, Fallback.code]; decide
  | actor hkind =>
      rw [Fallback.code]
      revert hkind
      generalize event.kind = kind
      revert kind
      decide

/-! ## The fallbacks of a recipe, group by group -/

theorem fallbacks_emitActor (args : Fields) :
    scope.actorFallbacks args =
      (if (args.get "actorId").isNull then none
        else Symbols.unlisted scope.actors .actorNotInScene (args.get "actorId")).toList := by
  rw [Symbols.unlisted_eq]
  simp only [actorFallbacks, actorNumber, Symbols.actorNumber_eq_zero]
  cases Symbols.entryIndex? scope.actors (args.get "actorId") with
  | none => cases (args.get "actorId").isNull <;> rfl
  | some index => simp

theorem fallbacks_emitSwitchScene (args : Fields) :
    (scope.emitSwitchScene args).fallbacks =
      (Symbols.unlisted scope.symbols.scenes .sceneNotFound (args.get "sceneId")).toList := by
  rw [Symbols.unlisted_eq, emitSwitchScene]
  cases Symbols.entryIndex? scope.symbols.scenes (args.get "sceneId") with
  | none => rfl
  | some index => rfl

theorem fallbacks_battle (encounter : Value) (number : Option Int) :
    (battle encounter number).fallbacks =
      (if number.any (0 ≤ ·) then none else some (.invalidEncounter encounter)).toList := by
  cases number with
  | none => rfl
  | some n =>
      by_cases hn : n < 0
      · simp [battle, hn, Recipe.dropped, Int.not_le.mpr hn]
      · simp [battle, hn, Recipe.single, Int.not_lt.mp hn]

theorem fallbacks_emitMusicPlay (args : Fields) :
    (scope.emitMusicPlay args).fallbacks =
      (Symbols.unlisted scope.symbols.music .musicNotFound (args.get "musicId")).toList := by
  rw [Symbols.unlisted_eq, emitMusicPlay]
  cases Symbols.entryIndex? scope.symbols.music (args.get "musicId") with
  | none => rfl
  | some index => rfl

/-- The recipe of an event has the fallback of the event, and no other. -/
theorem fallbacks_recipe {event : Event} {r : Recipe}
    (h : scope.recipe event.kind event.args = .ok r) :
    r.fallbacks = (scope.fallback? event).toList := by
  unfold fallback?
  cases hkind : event.kind
  all_goals rw [hkind] at h
  case text =>
    obtain ⟨index, -, rfl⟩ := emitText_ok.mp h
    rfl
  case setTrue | setFalse =>
    obtain ⟨index, -, rfl⟩ := emitFlag_ok.mp h
    rfl
  case cameraMoveTo | cameraLock =>
    obtain ⟨speed, -, rfl⟩ := emitCamera_ok.mp h
    rfl
  case startBattle =>
    obtain ⟨number, hnumber, rfl⟩ := emitStartBattle_ok.mp h
    obtain ⟨-, rfl⟩ := Operand.leadingInteger_ok.mp hnumber
    exact fallbacks_battle _ _
  all_goals cases h
  case switchScene => exact fallbacks_emitSwitchScene event.args
  case musicPlay => exact fallbacks_emitMusicPlay event.args
  case actorSetPosition | actorSetDirection | actorMoveTo | actorEmote | actorShow | actorHide =>
    exact fallbacks_emitActor event.args
  all_goals rfl

/-- An event that is emitted is warned about if it falls back, and only then. -/
theorem warnings_emit {event : Event} {emission : Emission}
    (h : scope.emit event.kind event.args = .ok emission) :
    emission.warnings.map Warning.cause = (scope.fallback? event).toList := by
  obtain ⟨r, hr, -, hwarnings⟩ := emit_ok.mp h
  rw [hwarnings, fallbacks_recipe hr]

end Scope

end SceneScript
