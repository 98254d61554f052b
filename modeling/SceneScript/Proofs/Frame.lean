import SceneScript.Proofs.Breakage

/-!
# Generation only touches what it appends

The output of a generator is shared: while the body of a test is laid out, the tests around it
have addresses open in the same output, and all patching is by position.  Still a call has a
footprint of its own, namely what it appends.  From whatever state an event or a block is laid
out, the slots that were there stay as they are, open or not, and none is lost, also if the call
fails somewhere inside; and if it succeeds, nothing is open in what it has appended.

The first half holds of every step and is `Generation.OnlyAdds`.  The second is not: a test
leaves addresses open until it is complete.  It holds of events and blocks because what they
append is the code of a plan, and a plan has no open slot.
-/

namespace SceneScript

namespace Generation

/-- What stood in the output before a step is framed: the step keeps every slot that was there,
and it never shortens the output, whether it succeeds or fails.  If it succeeds, no slot that it
has appended is open. -/
structure Frames {α : Type} (x : Generation α) : Prop where
  kept : ∀ s (position : Nat) value, s.output.slots[position]? = some value →
    (stateAfter x s).output.slots[position]? = some value
  grown : ∀ s, s.output.size ≤ (stateAfter x s).output.size
  given : ∀ s a t, x s = .ok a t → ∀ (position : Nat) value, s.output.size ≤ position →
    t.output.slots[position]? = some value → value.isNull = false

/-- If the step succeeds, it has added slots of which none is open. -/
def Completes {α : Type} (x : Generation α) : Prop :=
  ∀ s a t, x s = .ok a t → ∃ slots warnings, t = s.add slots warnings ∧
    ∀ slot ∈ slots, slot.isNull = false

theorem OnlyAdds.frames {α : Type} {x : Generation α} (hadds : x.OnlyAdds)
    (hcompletes : x.Completes) : x.Frames where
  kept := by
    intro s position value hslot
    obtain ⟨slots, warnings, hafter⟩ := hadds s
    obtain ⟨hlt, -⟩ := List.getElem?_eq_some_iff.mp hslot
    rw [hafter, Generator.slots_add, List.getElem?_append_left hlt]
    exact hslot
  grown := by
    intro s
    obtain ⟨slots, warnings, hafter⟩ := hadds s
    rw [hafter, Generator.size_add]
    exact Nat.le_add_right _ _
  given := by
    intro s a t hrun position value hposition hslot
    obtain ⟨slots, warnings, rfl, hgiven⟩ := hcompletes s a t hrun
    rw [Generator.slots_add, List.getElem?_append_right hposition] at hslot
    exact hgiven value (List.mem_of_getElem? hslot)

theorem Completes.bind {α β : Type} {x : Generation α} {f : α → Generation β} (hx : x.Completes)
    (hf : ∀ a, (f a).Completes) : (x >>= f).Completes := by
  intro s b u hrun
  obtain ⟨a, t, hfirst, hsecond⟩ := bind_ok.mp hrun
  obtain ⟨slots, warnings, rfl, hgiven⟩ := hx s a t hfirst
  obtain ⟨more, others, rfl, hmore⟩ := hf a _ b u hsecond
  refine ⟨slots ++ more, warnings ++ others, Generator.add_add _ _ _ _ _, ?_⟩
  exact List.forall_mem_append.mpr ⟨hgiven, hmore⟩

theorem completes_pure {α : Type} (a : α) : (pure a : Generation α).Completes := by
  rintro s _ _ ⟨⟩
  exact ⟨[], [], s.add_nil.symm, fun _ hslot => absurd hslot List.not_mem_nil⟩

theorem completes_extend {values : List Value} (h : ∀ v ∈ values, v.isNull = false) :
    (extend values).Completes := by
  intro s a t hrun
  rw [extend_run] at hrun
  cases hrun
  exact ⟨values, [], rfl, h⟩

end Generation

namespace Scope

open Generation

variable {scope : Scope}

/-- An event that succeeds has added the code of its plan, wherever it stands. -/
theorem generateEvent_ok {event : Event} {s t : Generator}
    (h : scope.generateEvent event s = .ok () t) :
    ∃ plan, Planned scope [event] plan ∧ t = s.add (plan.slots s.output.size) plan.warnings := by
  cases hbranches : event.branches? with
  | none =>
      obtain ⟨emission, hemit, rfl⟩ := (generateEvent_leaf_ok hbranches).mp h
      refine ⟨.straight emission .done, .leaf hbranches hemit .nil, ?_⟩
      rw [Plan.slots_straight, Plan.slots_done, Plan.warnings, Plan.warnings, List.append_nil,
        List.append_nil]
  | some bodies =>
      obtain ⟨whenSet, whenClear⟩ := bodies
      obtain ⟨flag, clear, set, hflag, hclear, hset, -, -, -, rfl⟩ :=
        generateEvent_test_ok hbranches h
      refine ⟨.test flag set clear .done, .test hbranches hflag hset hclear .nil, ?_⟩
      rw [Plan.slots_test, Plan.slots_done, Plan.warnings, Plan.warnings, List.append_nil,
        List.append_nil, Generator.closed, Plan.length_slots, Plan.length_slots]

theorem completes_generateEvent (event : Event) : (scope.generateEvent event).Completes := by
  intro s _ t hrun
  obtain ⟨plan, hplan, hadded⟩ := generateEvent_ok hrun
  exact ⟨_, _, hadded, hplan.slots_given _⟩

theorem completes_generateEvents (script : Script) : (scope.generateEvents script).Completes := by
  intro s _ t hrun
  obtain ⟨plan, hplan, hadded, -⟩ := generateEvents_ok hrun
  exact ⟨_, _, hadded, hplan.slots_given _⟩

theorem completes_generateBlock (script : Script) (isBody : Bool) :
    (scope.generateBlock script isBody).Completes := by
  refine (completes_generateEvents script).bind fun _ => ?_
  cases isBody with
  | true => exact completes_pure ()
  | false =>
      refine completes_extend fun v hv => ?_
      obtain rfl := List.mem_singleton.mp hv
      rfl

/-- **Generation only touches what it appends.**  From every state, laying out an event or a
block leaves each slot that was there as it was, open addresses of enclosing tests among them,
and never shortens the output, however and however deep inside it fails.  If it succeeds, no
slot in the part that it has appended is open. -/
theorem generation_frames_output (scope : Scope) :
    (∀ event, (scope.generateEvent event).Frames) ∧
      ∀ script isBody, (scope.generateBlock script isBody).Frames := by
  constructor
  · intro event
    exact (onlyAdds_generateEvent event).frames (completes_generateEvent event)
  · intro script isBody
    exact (onlyAdds_generateBlock script isBody).frames (completes_generateBlock script isBody)

end Scope

/-- Inside a test whose address is open, a second test opens its own and fails in its body.
Both stay open. -/
theorem generation_frames_output_enclosed :
    ∃ fault t, nestedScope.generateEvent (.whenSet (.str "lamp") [] [.plain .text []])
        (({} : Generator).opened 0) = .error fault t ∧
      t.output.size = 10 ∧ t.output.slots[3]? = some .null ∧ t.output.slots[8]? = some .null := by
  have hframes := (Scope.generation_frames_output nestedScope).1 (.whenSet (.str "lamp") []
    [.plain .text []])
  exact ⟨_, _, rfl, rfl, hframes.kept (({} : Generator).opened 0) 3 .null rfl, rfl⟩

end SceneScript
