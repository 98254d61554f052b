import SceneScript.Generation.Generator

/-!
# Plans

A script is laid out in one pass that reserves addresses and patches them later.  Its plan says
what the pass comes to, without a pass: the names are resolved, the bodies of a conditional
stand in the order of their outcomes, and nothing in a plan depends on where its code will
stand.

A plan is one tree and not a list of trees, so that it is recursed over without a detour through
lists:

    done                       nothing is left
    straight  emission  next   an event that contributes the same wherever it stands
    test      flag  …  next    a test of a flag, with the plans of both bodies

The sizes of plans give all addresses, and with them the drafted instructions of a plan at any
base.
-/

namespace SceneScript

namespace Event

/-- The bodies for a set and for a clear flag, if an event is a test of a flag. -/
def branches? : Event → Option (Script × Script)
  | .conditional .ifTrue _ whenTrue whenFalse => some (whenTrue, whenFalse)
  | .conditional .ifFalse _ whenTrue whenFalse => some (whenFalse, whenTrue)
  | .plain .ifTrue _ | .plain .ifFalse _ => some ([], [])
  | .conditional _ _ _ _ | .plain _ _ => none

theorem sizeOf_branches {event : Event} {whenSet whenClear : Script}
    (h : event.branches? = some (whenSet, whenClear)) :
    sizeOf whenSet < sizeOf event ∧ sizeOf whenClear < sizeOf event := by
  unfold branches? at h
  split at h <;> simp only [Option.some.injEq, Prod.mk.injEq, reduceCtorEq] at h
  all_goals
    obtain ⟨rfl, rfl⟩ := h
    simp only [conditional.sizeOf_spec, plain.sizeOf_spec, List.nil.sizeOf_spec,
      EventKind.ifTrue.sizeOf_spec, EventKind.ifFalse.sizeOf_spec]
    omega

end Event

/-- Induction over a script: an event is a test of a flag, with two scripts for bodies, or it is
none. -/
theorem Script.induction {motive : Script → Prop} (nil : motive [])
    (leaf : ∀ (event : Event) (rest : Script), event.branches? = none → motive rest →
      motive (event :: rest))
    (test : ∀ (event : Event) (rest whenSet whenClear : Script),
      event.branches? = some (whenSet, whenClear) → motive whenSet →
      motive whenClear → motive rest → motive (event :: rest)) :
    ∀ script : Script, motive script
  | [] => nil
  | event :: rest =>
      match h : event.branches? with
      | none => leaf event rest h (induction nil leaf test rest)
      | some (whenSet, whenClear) =>
          have := Event.sizeOf_branches h
          test event rest whenSet whenClear h (induction nil leaf test whenSet)
            (induction nil leaf test whenClear) (induction nil leaf test rest)
termination_by script => sizeOf script
decreasing_by
  all_goals
    simp only [List.cons.sizeOf_spec]
    omega

/-! ## Layouts, by events that are tests and events that are none -/

namespace Scope

variable {m : Type → Type} [Monad m] {scope : Scope} {steps : Steps m}

theorem layOutEvent_leaf {event : Event} (h : event.branches? = none) :
    scope.layOutEvent steps event =
      steps.orFail (scope.emit event.kind event.args) >>= steps.place := by
  cases event with
  | plain kind args =>
      cases kind
      case ifTrue | ifFalse => cases h
      all_goals rfl
  | conditional kind args whenTrue whenFalse =>
      cases kind
      case ifTrue | ifFalse => cases h
      all_goals rfl

/-- A test is laid out as a conditional on its flag, whichever outcome it was written for. -/
theorem layOutEvent_test {event : Event} {whenSet whenClear : Script}
    (h : event.branches? = some (whenSet, whenClear)) :
    scope.layOutEvent steps event =
      steps.conditional scope event.args (scope.layOutEvents steps whenSet)
        (scope.layOutEvents steps whenClear) := by
  unfold Event.branches? at h
  split at h
  all_goals cases h
  all_goals simp only [layOutEvent, layOutEvents, Event.args]

end Scope

/-! ## Plans -/

/-- The operands of a draft are bytes. -/
def Draft.Fits (d : Draft) : Prop := ∀ v ∈ d.operands, v.byte?.isSome

/-- What a script comes to once its names are resolved. -/
inductive Plan where
  | done
  | straight (emission : Emission) (next : Plan)
  | test (flag : Nat) (whenSet whenClear next : Plan)

/-- `Planned scope script plan`: every name in the script is known in the scope, and `plan` is
what the script comes to. -/
inductive Planned (scope : Scope) : Script → Plan → Prop
  | nil : Planned scope [] .done
  | leaf {event : Event} {rest : Script} {emission : Emission} {next : Plan} :
      event.branches? = none → scope.emit event.kind event.args = .ok emission →
      Planned scope rest next → Planned scope (event :: rest) (.straight emission next)
  | test {event : Event} {rest whenSet whenClear : Script} {flag : Nat} {set clear next : Plan} :
      event.branches? = some (whenSet, whenClear) →
      Symbols.flagIndex scope.symbols.flags (event.args.get "flag") = .ok flag →
      Planned scope whenSet set → Planned scope whenClear clear → Planned scope rest next →
      Planned scope (event :: rest) (.test flag set clear next)

/-- A script has at most one plan. -/
theorem Planned.unique {scope : Scope} {script : Script} {plan other : Plan}
    (h : Planned scope script plan) (h' : Planned scope script other) : plan = other := by
  induction h generalizing other with
  | nil => cases h'; rfl
  | leaf hleaf hemit _ ih =>
      cases h' with
      | leaf _ hemit' hrest =>
          rw [hemit] at hemit'
          cases hemit'
          rw [ih hrest]
      | test htest => rw [hleaf] at htest; cases htest
  | test htest hflag _ _ _ ihSet ihClear ih =>
      cases h' with
      | leaf hleaf => rw [htest] at hleaf; cases hleaf
      | test htest' hflag' hset hclear hrest =>
          rw [htest] at htest'
          cases htest'
          rw [hflag] at hflag'
          cases hflag'
          rw [ihSet hset, ihClear hclear, ih hrest]

namespace Plan

/-! ## The layout of a plan -/

/-- The number of slots of a plan.  A test takes five for its header and three for its jump. -/
def size : Plan → Nat
  | .done => 0
  | .straight emission next => emission.slots.length + next.size
  | .test _ whenSet whenClear next => 8 + whenClear.size + whenSet.size + next.size

/-- The instructions of a plan whose code starts at an address. -/
def drafts (base : Nat) : Plan → List Draft
  | .done => []
  | .straight emission next => emission.drafts ++ next.drafts (base + emission.slots.length)
  | .test flag whenSet whenClear next =>
    let setAddress := base + 8 + whenClear.size
    let endAddress := setAddress + whenSet.size
    ⟨.ifTrue, Operand.word flag ++ Operand.word setAddress⟩ :: whenClear.drafts (base + 5) ++
      ⟨.jump, Operand.word endAddress⟩ :: whenSet.drafts setAddress ++ next.drafts endAddress

/-- The instructions of a whole script: those of its plan from address 0 on, and the end. -/
def whole (plan : Plan) : List Draft := plan.drafts 0 ++ [⟨.halt, []⟩]

/-- The slots of a plan whose code starts at an address. -/
def slots (base : Nat) (plan : Plan) : List Value := (plan.drafts base).flatMap Draft.slots

theorem slots_done (base : Nat) : Plan.done.slots base = [] := rfl

theorem slots_straight (base : Nat) (emission : Emission) (next : Plan) :
    (Plan.straight emission next).slots base =
      emission.slots ++ next.slots (base + emission.slots.length) := by
  simp only [slots, drafts, Emission.slots, List.flatMap_append]

/-- The slots of a test as they are written: the header, its address, the code for a clear flag,
the jump, its address, the code for a set flag. -/
theorem slots_test (base flag : Nat) (whenSet whenClear next : Plan) :
    (Plan.test flag whenSet whenClear next).slots base =
      Draft.slots ⟨.ifTrue, Operand.word flag⟩ ++ Operand.word (base + 8 + whenClear.size) ++
        whenClear.slots (base + 5) ++ Draft.slots ⟨.jump, []⟩ ++
        Operand.word (base + 8 + whenClear.size + whenSet.size) ++
        whenSet.slots (base + 8 + whenClear.size) ++
        next.slots (base + 8 + whenClear.size + whenSet.size) := by
  simp only [slots, drafts, Draft.slots, List.flatMap_append, List.flatMap_cons, List.cons_append,
    List.append_assoc, List.nil_append]

/-- The size of a plan is the number of its slots, wherever it stands. -/
theorem length_slots (plan : Plan) (base : Nat) : (plan.slots base).length = plan.size := by
  induction plan generalizing base with
  | done => rfl
  | straight emission next ih => rw [slots_straight, List.length_append, ih, size]
  | test flag whenSet whenClear next ihSet ihClear ih =>
      simp only [slots_test, List.length_append, ihSet, ihClear, ih, size]
      simp only [Draft.slots, Operand.word, List.length_cons, List.length_nil]
      omega

/-- The warnings of a plan, in the order of the code. -/
def warnings : Plan → List Warning
  | .done => []
  | .straight emission next => emission.warnings ++ next.warnings
  | .test _ whenSet whenClear next => whenClear.warnings ++ whenSet.warnings ++ next.warnings

/-- The addresses that are written into the code of a plan at a base: where the code for a set
flag starts, and where it ends. -/
def addresses (base : Nat) : Plan → List Nat
  | .done => []
  | .straight emission next => next.addresses (base + emission.slots.length)
  | .test _ whenSet whenClear next =>
    let setAddress := base + 8 + whenClear.size
    let endAddress := setAddress + whenSet.size
    setAddress :: endAddress :: whenClear.addresses (base + 5) ++ whenSet.addresses setAddress ++
      next.addresses endAddress

/-- Every operand of a plan fits its byte, and every flag its word; addresses are not looked at. -/
def OperandsFit : Plan → Prop
  | .done => True
  | .straight emission next => (∀ d ∈ emission.drafts, d.Fits) ∧ next.OperandsFit
  | .test flag whenSet whenClear next =>
    flag ≤ 0xffff ∧ whenSet.OperandsFit ∧ whenClear.OperandsFit ∧ next.OperandsFit

end Plan

end SceneScript
