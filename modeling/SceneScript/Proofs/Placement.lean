import SceneScript.Proofs.Generation

/-!
# Where events stand

Every event that is laid out takes a stretch of the output, and how long the stretch is does not
depend on where it starts.  So the place of an event, at any depth of a script, can be told
before anything is laid out: the events before it are passed, the header of a test takes five
slots and its jump three.  Only the bodies of tests are gone into; the bodies that another kind
of event may carry are never laid out.
-/

namespace SceneScript

/-- The tests are the events of the two conditional kinds, with bodies or without. -/
theorem Event.isConditional_kind (event : Event) :
    event.kind.isConditional = event.branches?.isSome := by
  cases event with
  | plain kind args => cases kind <;> rfl
  | conditional kind args whenTrue whenFalse => cases kind <;> rfl

theorem Event.kind_of_test {event : Event} {bodies : Script × Script}
    (h : event.branches? = some bodies) : event.kind = .ifTrue ∨ event.kind = .ifFalse := by
  have hkind := event.isConditional_kind
  rw [h] at hkind
  simpa [EventKind.isConditional] using hkind

namespace Scope

/-- The number of slots of an event that is no test.  An event with an unknown name has none. -/
def leafWidth (scope : Scope) (kind : EventKind) (args : Fields) : Nat :=
  ((scope.emit kind args).toOption.map fun emission => emission.slots.length).getD 0

mutual
/-- The number of slots of an event, those of its bodies included. -/
def eventWidth (scope : Scope) : Event → Nat
  | .conditional .ifTrue _ whenTrue whenFalse | .conditional .ifFalse _ whenTrue whenFalse =>
    8 + (width scope whenTrue + width scope whenFalse)
  | .plain .ifTrue _ | .plain .ifFalse _ => 8
  | .conditional kind args _ _ | .plain kind args => scope.leafWidth kind args

/-- The number of slots of a script. -/
def width (scope : Scope) : List Event → Nat
  | [] => 0
  | event :: rest => eventWidth scope event + width scope rest
end

/-- `scope.Stands base script event start`: if the script is laid out from `base` on, the event
is one of those that are laid out, and its code starts at `start`. -/
inductive Stands (scope : Scope) : Nat → Script → Event → Nat → Prop
  | here {base : Nat} {event : Event} {rest : Script} : Stands scope base (event :: rest) event base
  | inClear {base start : Nat} {event inner : Event} {rest whenSet whenClear : Script} :
      event.branches? = some (whenSet, whenClear) → Stands scope (base + 5) whenClear inner start →
      Stands scope base (event :: rest) inner start
  | inSet {base start : Nat} {event inner : Event} {rest whenSet whenClear : Script} :
      event.branches? = some (whenSet, whenClear) →
      Stands scope (base + 8 + scope.width whenClear) whenSet inner start →
      Stands scope base (event :: rest) inner start
  | later {base start : Nat} {event other : Event} {rest : Script} :
      Stands scope (base + scope.eventWidth event) rest other start →
      Stands scope base (event :: rest) other start

variable {scope : Scope}

/-! ## Widths -/

theorem leafWidth_ok {kind : EventKind} {args : Fields} {emission : Emission}
    (h : scope.emit kind args = .ok emission) :
    scope.leafWidth kind args = emission.slots.length := by
  rw [leafWidth, h]
  rfl

theorem eventWidth_leaf {event : Event} (h : event.branches? = none) :
    scope.eventWidth event = scope.leafWidth event.kind event.args := by
  cases event with
  | plain kind args =>
      cases kind
      case ifTrue | ifFalse => cases h
      all_goals rfl
  | conditional kind args whenTrue whenFalse =>
      cases kind
      case ifTrue | ifFalse => cases h
      all_goals rfl

theorem eventWidth_test {event : Event} {whenSet whenClear : Script}
    (h : event.branches? = some (whenSet, whenClear)) :
    scope.eventWidth event = 8 + scope.width whenClear + scope.width whenSet := by
  unfold Event.branches? at h
  split at h
  all_goals cases h
  all_goals simp only [eventWidth, width]
  all_goals omega

/-! ## What holds of every event in place -/

theorem forall_stands_nil {base : Nat} {P : Event → Nat → Prop} :
    ∀ event start, scope.Stands base [] event start → P event start := by
  intro event start h
  cases h

theorem forall_stands_leaf {base : Nat} {event : Event} {rest : Script} {P : Event → Nat → Prop}
    (hleaf : event.branches? = none) :
    (∀ other start, scope.Stands base (event :: rest) other start → P other start) ↔
      P event base ∧
      ∀ other start, scope.Stands (base + scope.eventWidth event) rest other start →
        P other start := by
  constructor
  · intro h
    exact ⟨h event base .here, fun other start hother => h other start (.later hother)⟩
  · rintro ⟨hhere, hlater⟩ other start h
    cases h with
    | here => exact hhere
    | inClear htest _ =>
        rw [hleaf] at htest
        cases htest
    | inSet htest _ =>
        rw [hleaf] at htest
        cases htest
    | later hother => exact hlater other start hother

theorem forall_stands_test {base : Nat} {event : Event} {rest whenSet whenClear : Script}
    {P : Event → Nat → Prop} (htest : event.branches? = some (whenSet, whenClear)) :
    (∀ other start, scope.Stands base (event :: rest) other start → P other start) ↔
      P event base ∧ (∀ other start, scope.Stands (base + 5) whenClear other start →
        P other start) ∧
      (∀ other start, scope.Stands (base + 8 + scope.width whenClear) whenSet other start →
        P other start) ∧
      ∀ other start, scope.Stands (base + scope.eventWidth event) rest other start →
        P other start := by
  constructor
  · intro h
    exact ⟨h event base .here, fun other start hother => h other start (.inClear htest hother),
      fun other start hother => h other start (.inSet htest hother),
      fun other start hother => h other start (.later hother)⟩
  · rintro ⟨hhere, hclear, hset, hlater⟩ other start h
    cases h with
    | here => exact hhere
    | inClear htest' hother =>
        rw [htest] at htest'
        cases htest'
        exact hclear other start hother
    | inSet htest' hother =>
        rw [htest] at htest'
        cases htest'
        exact hset other start hother
    | later hother => exact hlater other start hother

end Scope

/-! ## Widths and plans -/

theorem Planned.size_eq {scope : Scope} {script : Script} {plan : Plan}
    (h : Planned scope script plan) : plan.size = scope.width script := by
  induction h with
  | nil => rfl
  | leaf hleaf hemit _ ih =>
      rw [Plan.size, Scope.width, Scope.eventWidth_leaf hleaf, Scope.leafWidth_ok hemit, ih]
  | test htest _ _ _ _ ihSet ihClear ih =>
      rw [Plan.size, Scope.width, Scope.eventWidth_test htest, ihSet, ihClear, ih]

end SceneScript
