import SceneScript.Proofs.Reading

/-!
# Which values are scripts

`IsScript`, `IsEvent` and `IsBody` are the grammar of script files, said without the reader.
What does not count as given is taken for an empty part under `script`, `args`, `true` and
`false`, but not for a script on the outside; and the wrapper `script` may stand around any
body, but not around another wrapper.

Reading takes exactly the values of this grammar.  What it makes of them is the relation
`Describes`, which goes through the values and the events side by side: one event for each
object, in the same order and with the same nesting.  Two more facts come out of that relation
by induction: the number of events is the number of objects that are reached, and a script that
is written out as objects again is read back as it was.
-/

namespace SceneScript

/-! ## The grammar -/

mutual
/-- The value is a script: a list of events, or an object with such a list or nothing under
`script`. -/
inductive IsScript : Value → Prop
  | list {items : List Value} : (∀ item ∈ items, IsEvent item) → IsScript (.list items)
  | empty {fields : Fields} : (Fields.get fields "script").truthy = false →
    IsScript (.object fields)
  | wrapped {fields : Fields} {items : List Value} : Fields.get fields "script" = .list items →
      (∀ item ∈ items, IsEvent item) → IsScript (.object fields)

/-- The value is an event: an object with the command of some kind, with arguments and, if
events of the kind carry bodies, with two of them. -/
inductive IsEvent : Value → Prop
  | plain {fields : Fields} {kind : EventKind} : Fields.get fields "command" = .str kind.command →
      kind.isConditional = false → (Fields.get fields "args").IsArguments → IsEvent (.object fields)
  | conditional {fields : Fields} {kind : EventKind} :
      Fields.get fields "command" = .str kind.command →
      kind.isConditional = true → (Fields.get fields "args").IsArguments →
      IsBody (Fields.get fields "true") → IsBody (Fields.get fields "false") →
      IsEvent (.object fields)

/-- The value is a body: a script, or something that does not count as given. -/
inductive IsBody : Value → Prop
  | absent {v : Value} : v.truthy = false → IsBody v
  | script {v : Value} : IsScript v → IsBody v
end

/-! ## What a script file describes -/

/-- `Describes items script`: the values are the events of the script, one by one and body by
body. -/
inductive Describes : List Value → Script → Prop
  | nil : Describes [] []
  | plain {fields args : Fields} {kind : EventKind} {items : List Value} {script : Script} :
      Fields.get fields "command" = .str kind.command → kind.isConditional = false →
      (Fields.get fields "args").toFields = .ok args → Describes items script →
      Describes (.object fields :: items) (.plain kind args :: script)
  | conditional {fields args : Fields} {kind : EventKind} {items trueItems falseItems : List Value}
      {script whenTrue whenFalse : Script} :
      Fields.get fields "command" = .str kind.command → kind.isConditional = true →
      (Fields.get fields "args").toFields = .ok args →
      (Fields.get fields "true").bodyItems? = some trueItems → Describes trueItems whenTrue →
      (Fields.get fields "false").bodyItems? = some falseItems → Describes falseItems whenFalse →
      Describes items script →
      Describes (.object fields :: items) (.conditional kind args whenTrue whenFalse :: script)

namespace Describes

theorem cons {v : Value} {event : Event} {items : List Value} {script : Script}
    (hfirst : Describes [v] [event]) (hrest : Describes items script) :
    Describes (v :: items) (event :: script) := by
  cases hfirst with
  | plain hcommand hkind hargs _ => exact .plain hcommand hkind hargs hrest
  | conditional hcommand hkind hargs htrue hwhenTrue hfalse hwhenFalse _ =>
      exact .conditional hcommand hkind hargs htrue hwhenTrue hfalse hwhenFalse hrest

theorem of_forall {items : List Value} (h : ∀ item ∈ items, ∃ event, Describes [item] [event]) :
    ∃ script, Describes items script := by
  induction items with
  | nil => exact ⟨[], .nil⟩
  | cons item rest ih =>
      rw [List.forall_mem_cons] at h
      obtain ⟨⟨event, hevent⟩, hrest⟩ := h
      obtain ⟨script, hscript⟩ := ih hrest
      exact ⟨event :: script, cons hevent hscript⟩

end Describes

/-! ## The grammar and the description agree -/

mutual
theorem IsScript.describes {v : Value} :
    IsScript v → ∃ items script, v.items? = some items ∧ Describes items script
  | .list h => by
      obtain ⟨script, hscript⟩ := Describes.of_forall fun item hmem => (h item hmem).describes
      exact ⟨_, script, rfl, hscript⟩
  | .empty h => ⟨[], [], Value.items?_eq_some.mpr (.inr ⟨_, rfl, .inr ⟨h, rfl⟩⟩), .nil⟩
  | .wrapped hlist h => by
      obtain ⟨script, hscript⟩ := Describes.of_forall fun item hmem => (h item hmem).describes
      exact ⟨_, script, Value.items?_eq_some.mpr (.inr ⟨_, rfl, .inl hlist⟩), hscript⟩

theorem IsEvent.describes {v : Value} : IsEvent v → ∃ event, Describes [v] [event]
  | .plain hcommand hkind hargs => by
      obtain ⟨args, hargs⟩ := (Value.toFields_ok_iff _).mpr hargs
      exact ⟨_, .plain hcommand hkind hargs .nil⟩
  | .conditional hcommand hkind hargs htrue hfalse => by
      obtain ⟨args, hargs⟩ := (Value.toFields_ok_iff _).mpr hargs
      obtain ⟨trueItems, whenTrue, htrue, hwhenTrue⟩ := htrue.describes
      obtain ⟨falseItems, whenFalse, hfalse, hwhenFalse⟩ := hfalse.describes
      exact ⟨_, .conditional hcommand hkind hargs htrue hwhenTrue hfalse hwhenFalse .nil⟩

theorem IsBody.describes {v : Value} :
    IsBody v → ∃ items script, v.bodyItems? = some items ∧ Describes items script
  | .absent h => ⟨[], [], if_neg (Bool.eq_false_iff.mp h), .nil⟩
  | .script h => by
      obtain ⟨items, script, hitems, hscript⟩ := h.describes
      unfold Value.bodyItems?
      split
      · exact ⟨items, script, hitems, hscript⟩
      · exact ⟨[], [], rfl, .nil⟩
end

theorem isScript_of_items {v : Value} {items : List Value} (hitems : v.items? = some items)
    (h : ∀ item ∈ items, IsEvent item) : IsScript v := by
  rcases Value.items?_eq_some.mp hitems with rfl | ⟨fields, rfl, hlist | ⟨hfalsy, -⟩⟩
  · exact .list h
  · exact .wrapped hlist h
  · exact .empty hfalsy

theorem isBody_of_items {v : Value} {items : List Value} (hitems : v.bodyItems? = some items)
    (h : ∀ item ∈ items, IsEvent item) : IsBody v := by
  rcases Value.bodyItems?_eq_some.mp hitems with ⟨hfalsy, -⟩ | ⟨-, hitems⟩
  · exact .absent hfalsy
  · exact .script (isScript_of_items hitems h)

theorem Describes.isEvent {items : List Value} {script : Script} (h : Describes items script) :
    ∀ item ∈ items, IsEvent item := by
  induction h with
  | nil => exact fun _ hmem => absurd hmem List.not_mem_nil
  | plain hcommand hkind hargs _ ih =>
      rw [List.forall_mem_cons]
      exact ⟨.plain hcommand hkind ((Value.toFields_ok_iff _).mp ⟨_, hargs⟩), ih⟩
  | conditional hcommand hkind hargs htrue _ hfalse _ _ ihTrue ihFalse ih =>
      rw [List.forall_mem_cons]
      have harguments := (Value.toFields_ok_iff _).mp ⟨_, hargs⟩
      exact ⟨.conditional hcommand hkind harguments (isBody_of_items htrue ihTrue)
        (isBody_of_items hfalse ihFalse), ih⟩

theorem isScript_iff {v : Value} :
    IsScript v ↔ ∃ items script, v.items? = some items ∧ Describes items script := by
  constructor
  · exact IsScript.describes
  · rintro ⟨items, script, hitems, h⟩
    exact isScript_of_items hitems h.isEvent

/-! ## The reader finds the description -/

theorem describes_of_readEvents {items : List Value} :
    ∀ {script : Script}, readEvents items = .ok script → Describes items script := by
  induction items using items_induction with
  | nil =>
      intro script h
      rw [readEvents] at h
      cases h
      exact .nil
  | cons v rest ihBody ihRest =>
      intro script h
      rw [readEvents_cons] at h
      obtain ⟨event, hevent, h⟩ := result_bind_ok.mp h
      obtain ⟨events, hrest, h⟩ := result_bind_ok.mp h
      cases h
      obtain ⟨fields, kind, args, rfl, hheader⟩ := readEvent_object hevent
      obtain ⟨hcommand, hargs⟩ := readHeader_ok.mp hheader
      rw [readEvent_of_header hheader] at hevent
      split at hevent
      · rename_i hkind
        obtain ⟨whenTrue, htrue, hevent⟩ := result_bind_ok.mp hevent
        obtain ⟨whenFalse, hfalse, hevent⟩ := result_bind_ok.mp hevent
        cases hevent
        obtain ⟨trueItems, htrueItems, htrue⟩ := readBody_ok.mp htrue
        obtain ⟨falseItems, hfalseItems, hfalse⟩ := readBody_ok.mp hfalse
        exact .conditional hcommand hkind hargs htrueItems
          (ihBody _ _ _ rfl htrueItems htrue) hfalseItems
          (ihBody _ _ _ rfl hfalseItems hfalse) (ihRest hrest)
      · rename_i hkind
        cases hevent
        exact .plain hcommand (Bool.eq_false_iff.mpr hkind) hargs (ihRest hrest)

theorem readEvents_of_describes {items : List Value} {script : Script}
    (h : Describes items script) : readEvents items = .ok script := by
  induction h with
  | nil => rw [readEvents]
  | plain hcommand hkind hargs _ ih =>
      have hheader := readHeader_ok.mpr ⟨hcommand, hargs⟩
      rw [readEvents_cons, readEvent_of_header hheader, hkind, ih]
      rfl
  | conditional hcommand hkind hargs htrue _ hfalse _ _ ihTrue ihFalse ih =>
      have hheader := readHeader_ok.mpr ⟨hcommand, hargs⟩
      rw [readEvents_cons, readEvent_of_header hheader, hkind, readBody_some htrue, ihTrue,
        readBody_some hfalse, ihFalse, ih]
      rfl

theorem readScript_ok_iff_describes {v : Value} {script : Script} :
    readScript v = .ok script ↔ ∃ items, v.items? = some items ∧ Describes items script := by
  rw [readScript_ok]
  constructor
  · rintro ⟨items, hitems, h⟩
    exact ⟨items, hitems, describes_of_readEvents h⟩
  · rintro ⟨items, hitems, h⟩
    exact ⟨items, hitems, readEvents_of_describes h⟩

theorem readScript_ok_iff_isScript {v : Value} :
    (∃ script, readScript v = .ok script) ↔ IsScript v := by
  rw [isScript_iff]
  constructor
  · rintro ⟨script, h⟩
    obtain ⟨items, hitems, hdescribes⟩ := readScript_ok_iff_describes.mp h
    exact ⟨items, script, hitems, hdescribes⟩
  · rintro ⟨items, script, hitems, hdescribes⟩
    exact ⟨script, readScript_ok_iff_describes.mpr ⟨items, hitems, hdescribes⟩⟩

theorem readEvent_ok_iff_isEvent {v : Value} : (∃ event, readEvent v = .ok event) ↔ IsEvent v := by
  constructor
  · rintro ⟨event, h⟩
    have hread : readEvents [v] = .ok [event] := by
      rw [readEvents_cons, h, readEvents]
      rfl
    exact (describes_of_readEvents hread).isEvent v List.mem_cons_self
  · intro h
    obtain ⟨event, hdescribes⟩ := h.describes
    have hread := readEvents_of_describes hdescribes
    rw [readEvents_cons] at hread
    obtain ⟨event', hevent, -⟩ := result_bind_ok.mp hread
    exact ⟨event', hevent⟩

theorem readBody_ok_iff_isBody {name : String} {fields : Fields} :
    (∃ script, readBody name fields = .ok script) ↔ IsBody (Fields.get fields name) := by
  constructor
  · rintro ⟨script, h⟩
    obtain ⟨items, hitems, h⟩ := readBody_ok.mp h
    exact isBody_of_items hitems (describes_of_readEvents h).isEvent
  · intro h
    obtain ⟨items, script, hitems, hdescribes⟩ := h.describes
    exact ⟨script, readBody_ok.mpr ⟨items, hitems, readEvents_of_describes hdescribes⟩⟩

/-! ## Events at any depth -/

/-- The event stands in the script, in whatever body. -/
inductive Script.Contains : Script → Event → Prop
  | here {event : Event} {rest : Script} : Contains (event :: rest) event
  | later {event node : Event} {rest : Script} : Contains rest node → Contains (event :: rest) node
  | inTrue {kind : EventKind} {args : Fields} {whenTrue whenFalse rest : Script} {node : Event} :
      Contains whenTrue node → Contains (.conditional kind args whenTrue whenFalse :: rest) node
  | inFalse {kind : EventKind} {args : Fields} {whenTrue whenFalse rest : Script} {node : Event} :
      Contains whenFalse node → Contains (.conditional kind args whenTrue whenFalse :: rest) node

theorem EventKind.isConditional_iff {kind : EventKind} :
    kind.isConditional = true ↔ kind = .ifTrue ∨ kind = .ifFalse := by
  rw [isConditional, Bool.or_eq_true, beq_iff_eq, beq_iff_eq]

theorem Describes.bodies_iff {items : List Value} {script : Script} (h : Describes items script) :
    ∀ node, Script.Contains script node →
      ((∃ whenTrue whenFalse, node = .conditional node.kind node.args whenTrue whenFalse) ↔
        node.kind.isConditional = true) := by
  induction h with
  | nil =>
      intro node hnode
      cases hnode
  | plain _ hkind _ _ ih =>
      intro node hnode
      cases hnode with
      | here =>
          constructor
          · rintro ⟨_, _, heq⟩
            cases heq
          · intro hconditional
            exact absurd (hkind.symm.trans hconditional) Bool.false_ne_true
      | later hnode => exact ih node hnode
  | conditional _ hkind _ _ _ _ _ _ ihTrue ihFalse ih =>
      intro node hnode
      cases hnode with
      | here => exact ⟨fun _ => hkind, fun _ => ⟨_, _, rfl⟩⟩
      | later hnode => exact ih node hnode
      | inTrue hnode => exact ihTrue node hnode
      | inFalse hnode => exact ihFalse node hnode

/-! ## Counting the objects -/

/-- The values in a body of a conditional event; other events have none. -/
def Value.nested (name : String) : Value → List Value
  | .object fields =>
    match EventKind.ofValue (Fields.get fields "command") with
    | .ok kind => if kind.isConditional then (Fields.get fields name).bodyItems?.getD [] else []
    | .error _ => []
  | _ => []

theorem Value.nested_of_command {fields : Fields} {kind : EventKind} (name : String)
    (h : Fields.get fields "command" = .str kind.command) :
    Value.nested name (.object fields) =
      if kind.isConditional then (Fields.get fields name).bodyItems?.getD [] else [] := by
  rw [nested, EventKind.ofValue_ok.mpr h]

theorem Value.sizeOf_nested (name : String) (v : Value) : sizeOf (v.nested name) < sizeOf v := by
  have hnil := v.sizeOf_nil_lt
  unfold nested
  split
  · rename_i fields
    split
    · split
      · cases hitems : (Fields.get fields name).bodyItems? with
        | none => exact hnil
        | some items => exact sizeOf_bodyItems hitems
      · exact hnil
    · exact hnil
  · exact hnil

/-- The number of values that are reached as events: each of the given ones, and those in bodies. -/
def countReached : List Value → Nat
  | [] => 0
  | v :: rest =>
      1 + (countReached (v.nested "true") + countReached (v.nested "false")) + countReached rest
termination_by items => sizeOf items
decreasing_by
  · have := v.sizeOf_nested "true"
    simp only [List.cons.sizeOf_spec]
    omega
  · have := v.sizeOf_nested "false"
    simp only [List.cons.sizeOf_spec]
    omega
  · simp only [List.cons.sizeOf_spec]
    omega

theorem Describes.countAll {items : List Value} {script : Script} (h : Describes items script) :
    Event.countAll script = countReached items := by
  induction h with
  | nil => rw [Event.countAll, countReached]
  | plain hcommand hkind _ _ ih =>
      rw [Event.countAll, Event.count, countReached, Value.nested_of_command _ hcommand,
        Value.nested_of_command _ hcommand, hkind, ih]
      simp only [Bool.false_eq_true, if_false, countReached]
  | conditional hcommand hkind _ htrue _ hfalse _ _ ihTrue ihFalse ih =>
      rw [Event.countAll, Event.count, countReached, Value.nested_of_command _ hcommand,
        Value.nested_of_command _ hcommand, hkind, htrue, hfalse, ihTrue, ihFalse, ih]
      rfl

/-! ## Writing a script out -/

namespace Event

mutual
/-- An event as an object. -/
def written : Event → Value
  | .plain kind args => .object [(.str "command", .str kind.command), (.str "args", .object args)]
  | .conditional kind args whenTrue whenFalse =>
    .object [(.str "command", .str kind.command), (.str "args", .object args),
      (.str "true", .list (writtenAll whenTrue)), (.str "false", .list (writtenAll whenFalse))]

/-- The events of a script as objects. -/
def writtenAll : List Event → List Value
  | [] => []
  | event :: rest => written event :: writtenAll rest
end

end Event

theorem Value.bodyItems?_list (items : List Value) :
    (Value.list items).bodyItems? = some items := by
  cases items with
  | nil => rfl
  | cons item rest => rfl

theorem Describes.written {items : List Value} {script : Script} (h : Describes items script) :
    Describes (Event.writtenAll script) script := by
  induction h with
  | nil =>
      rw [Event.writtenAll]
      exact .nil
  | plain _ hkind _ _ ih =>
      rw [Event.writtenAll, Event.written]
      exact .plain rfl hkind (Value.toFields_object _) ih
  | conditional _ hkind _ _ _ _ _ _ ihTrue ihFalse ih =>
      rw [Event.writtenAll, Event.written]
      exact .conditional rfl hkind (Value.toFields_object _) (Value.bodyItems?_list _) ihTrue
        (Value.bodyItems?_list _) ihFalse ih

/-! ## Script files

The values above are more than a file can hold: in a file the fields of an object have texts for
names, and no two the same.  Arguments that are given as pairs may have other names; if they
have none, a script that was read from a file can be written to one. -/

/-- All fields have texts for names. -/
def Fields.Named (fields : Fields) : Prop := ∀ field ∈ fields, ∃ name, field.1 = .str name

/-- The value can stand in a file. -/
inductive Value.IsJson : Value → Prop
  | scalar {s : Scalar} : IsJson (.scalar s)
  | list {items : List Value} : (∀ item ∈ items, IsJson item) → IsJson (.list items)
  | object {fields : Fields} : fields.Named → (fields.map Prod.fst).Nodup →
      (∀ field ∈ fields, IsJson field.2) → IsJson (.object fields)

theorem Value.isJson_list {items : List Value} :
    (Value.list items).IsJson ↔ ∀ item ∈ items, item.IsJson := by
  constructor
  · rintro (_ | hitems)
    exact hitems
  · exact .list

theorem Value.isJson_object {fields : Fields} :
    (Value.object fields).IsJson ↔
      fields.Named ∧ (fields.map Prod.fst).Nodup ∧ ∀ field ∈ fields, field.2.IsJson := by
  constructor
  · rintro (_ | _ | ⟨hnamed, hnodup, hfields⟩)
    exact ⟨hnamed, hnodup, hfields⟩
  · rintro ⟨hnamed, hnodup, hfields⟩
    exact .object hnamed hnodup hfields

/-- No key is given twice, and what stands under the keys can stand in a file. -/
structure Fields.Keyed (fields : Fields) : Prop where
  nodup : (fields.map Prod.fst).Nodup
  isJson : ∀ field ∈ fields, field.2.IsJson

theorem Scalar.same_self (s : Scalar) : s.same s = true := by
  cases s with
  | null => rfl
  | str s => exact beq_self_eq_true s
  | bool b => cases b <;> rfl
  | int n => exact beq_self_eq_true (some n)
  | float x => cases hnan : x.isNaN <;> simp [same, Binary64.equals, hnan]

theorem Fields.Keyed.put {fields : Fields} (h : fields.Keyed) (key : Scalar) {v : Value}
    (hv : v.IsJson) : (fields.put key v).Keyed := by
  unfold Fields.put
  split
  · have hkeys : (fields.map fun field =>
        if field.1.same key then (field.1, v) else field).map Prod.fst =
        fields.map Prod.fst := by
      rw [List.map_map]
      apply List.map_congr_left
      intro field _
      show (if field.1.same key then (field.1, v) else field).1 = field.1
      split <;> rfl
    constructor
    · rw [hkeys]
      exact h.nodup
    · intro field hfield
      obtain ⟨old, hold, rfl⟩ := List.mem_map.mp hfield
      split
      · exact hv
      · exact h.isJson old hold
  · rename_i hnew
    constructor
    · rw [List.map_append, List.nodup_append]
      refine ⟨h.nodup, List.pairwise_singleton _ _, ?_⟩
      intro old hold new hkey heq
      rw [List.mem_singleton.mp hkey] at heq
      obtain ⟨field, hfield, rfl⟩ := List.mem_map.mp hold
      exact hnew (List.any_eq_true.mpr ⟨field, hfield, heq ▸ Scalar.same_self field.1⟩)
    · intro field hfield
      rcases List.mem_append.mp hfield with hold | hlast
      · exact h.isJson field hold
      · rw [List.mem_singleton.mp hlast]
        exact hv

namespace Value

theorem IsJson.get {fields : Fields} (h : IsJson (.object fields)) (name : String) :
    (Fields.get fields name).IsJson := by
  rcases Fields.get_mem fields name with hnull | ⟨key, hmem⟩
  · rw [hnull]
    exact .scalar
  · exact (isJson_object.mp h).2.2 _ hmem

theorem IsJson.items {v : Value} {items : List Value} (h : v.IsJson)
    (hitems : v.items? = some items) : ∀ item ∈ items, item.IsJson := by
  rcases items?_eq_some.mp hitems with rfl | ⟨fields, rfl, hlist | ⟨-, rfl⟩⟩
  · exact isJson_list.mp h
  · exact isJson_list.mp (hlist ▸ h.get "script")
  · exact fun _ hmem => absurd hmem List.not_mem_nil

theorem IsJson.bodyItems {v : Value} {items : List Value} (h : v.IsJson)
    (hitems : v.bodyItems? = some items) : ∀ item ∈ items, item.IsJson := by
  rcases bodyItems?_eq_some.mp hitems with ⟨-, rfl⟩ | ⟨-, hitems⟩
  · exact fun _ hmem => absurd hmem List.not_mem_nil
  · exact h.items hitems

theorem IsJson.elements {v : Value} {items : List Value} (h : v.IsJson)
    (hitems : v.elements = .ok items) : ∀ item ∈ items, item.IsJson := by
  unfold Value.elements at hitems
  split at hitems
  · cases hitems
    exact isJson_list.mp h
  · cases hitems
    intro item hitem
    obtain ⟨_, _, rfl⟩ := List.mem_map.mp hitem
    exact .scalar
  · cases hitems
    intro item hitem
    obtain ⟨_, _, rfl⟩ := List.mem_map.mp hitem
    exact .scalar
  · cases hitems

theorem keyed_fieldsOfPairs {items : List Value} (hitems : ∀ item ∈ items, item.IsJson)
    {index : Nat} {done args : Fields} (hdone : done.Keyed)
    (h : fieldsOfPairs index done items = .ok args) : args.Keyed := by
  induction items generalizing index done with
  | nil =>
      cases h
      exact hdone
  | cons item rest ih =>
      rw [List.forall_mem_cons] at hitems
      rw [fieldsOfPairs] at h
      obtain ⟨elements, helements, h⟩ := result_bind_ok.mp h
      have hjson := hitems.1.elements helements
      split at h
      · rename_i key value
        split at h
        · exact ih hitems.2 (hdone.put _ (hjson value (by simp))) h
        · cases h
      · cases h

theorem IsJson.keyed_toFields {v : Value} {args : Fields} (h : v.IsJson)
    (hargs : v.toFields = .ok args) : args.Keyed := by
  have hnil : Fields.Keyed [] := ⟨List.nodup_nil, fun _ hmem => absurd hmem List.not_mem_nil⟩
  cases h with
  | object _ hnodup hfields =>
      rw [toFields_object] at hargs
      cases hargs
      exact ⟨hnodup, hfields⟩
  | list hitems =>
      rw [toFields_list] at hargs
      exact keyed_fieldsOfPairs hitems hnil hargs
  | @scalar s =>
      -- a scalar gives arguments only if it does not count as given
      have harguments := (toFields_ok_iff _).mp ⟨args, hargs⟩
      cases harguments with
      | absent hfalsy =>
          rw [toFields_absent hfalsy] at hargs
          cases hargs
          exact hnil

end Value

theorem Event.isJson_plain {kind : EventKind} {args : Fields}
    (hargs : Value.IsJson (.object args)) : (written (.plain kind args)).IsJson := by
  rw [written]
  refine .object ?_ ?_ ?_
  · simp [Fields.Named]
  · show List.Nodup [Scalar.str "command", .str "args"]
    decide
  · simp [Value.IsJson.scalar, hargs]

theorem Event.isJson_conditional {kind : EventKind} {args : Fields} {whenTrue whenFalse : Script}
    (hargs : Value.IsJson (.object args)) (htrue : ∀ v ∈ writtenAll whenTrue, v.IsJson)
    (hfalse : ∀ v ∈ writtenAll whenFalse, v.IsJson) :
    (written (.conditional kind args whenTrue whenFalse)).IsJson := by
  rw [written]
  refine .object ?_ ?_ ?_
  · simp [Fields.Named]
  · show List.Nodup [Scalar.str "command", .str "args", .str "true", .str "false"]
    decide
  · simp [Value.IsJson.scalar, hargs, Value.IsJson.list htrue, Value.IsJson.list hfalse]

theorem Describes.isJson_written {items : List Value} {script : Script} (h : Describes items script)
    (hitems : ∀ item ∈ items, item.IsJson)
    (hnamed : ∀ node, Script.Contains script node → node.args.Named) :
    ∀ v ∈ Event.writtenAll script, v.IsJson := by
  induction h with
  | nil =>
      rw [Event.writtenAll]
      exact fun _ hmem => absurd hmem List.not_mem_nil
  | plain _ _ hargs _ ih =>
      rw [List.forall_mem_cons] at hitems
      have hkeyed := (hitems.1.get "args").keyed_toFields hargs
      rw [Event.writtenAll, List.forall_mem_cons]
      exact ⟨Event.isJson_plain (.object (hnamed _ .here) hkeyed.nodup hkeyed.isJson),
        ih hitems.2 fun node hnode => hnamed node (.later hnode)⟩
  | conditional _ _ hargs htrue _ hfalse _ _ ihTrue ihFalse ih =>
      rw [List.forall_mem_cons] at hitems
      have hkeyed := (hitems.1.get "args").keyed_toFields hargs
      have hwhenTrue := ihTrue ((hitems.1.get "true").bodyItems htrue) fun node hnode =>
        hnamed node (.inTrue hnode)
      have hwhenFalse := ihFalse ((hitems.1.get "false").bodyItems hfalse) fun node hnode =>
        hnamed node (.inFalse hnode)
      rw [Event.writtenAll, List.forall_mem_cons]
      exact ⟨Event.isJson_conditional (.object (hnamed _ .here) hkeyed.nodup hkeyed.isJson)
        hwhenTrue hwhenFalse, ih hitems.2 fun node hnode => hnamed node (.later hnode)⟩

/-! ## Reading and the grammar -/

/-- Reading takes exactly the values of the grammar.  The script it gives has one event for each
object, in the same order and nesting, and as many as there are objects that are reached; an
event has bodies exactly if its kind is conditional; and the script written out is read back as
it was, from a value that can stand in a file if the first one could and all arguments are named
by texts. -/
theorem readScript_follows_grammar (v : Value) :
    ((∃ script, readScript v = .ok script) ↔ IsScript v) ∧
    ∀ script, readScript v = .ok script →
      (∃ items, v.items? = some items ∧ Describes items script ∧
        Event.countAll script = countReached items) ∧
      (∀ node, Script.Contains script node →
        ((∃ whenTrue whenFalse, node = .conditional node.kind node.args whenTrue whenFalse) ↔
          node.kind = .ifTrue ∨ node.kind = .ifFalse)) ∧
      readScript (.list (Event.writtenAll script)) = .ok script ∧
      (v.IsJson → (∀ node, Script.Contains script node → node.args.Named) →
        (Value.list (Event.writtenAll script)).IsJson) := by
  constructor
  · exact readScript_ok_iff_isScript
  · intro script h
    obtain ⟨items, hitems, hdescribes⟩ := readScript_ok_iff_describes.mp h
    refine ⟨⟨items, hitems, hdescribes, hdescribes.countAll⟩, ?_, ?_, ?_⟩
    · intro node hnode
      rw [hdescribes.bodies_iff node hnode, EventKind.isConditional_iff]
    · exact readScript_ok_iff_describes.mpr ⟨_, rfl, hdescribes.written⟩
    · intro hjson hnamed
      exact .list (hdescribes.isJson_written (hjson.items hitems) hnamed)

/-- A file with a wrapper at two depths, arguments given as pairs, a body left out as zero, and
a field under `true` that belongs to no body. -/
def wrappedFile : Value :=
  .object [(.str "script", .list [
    .object [(.str "command", .str "EVENT_IF_TRUE"),
      (.str "args", .list [.list [.str "flag", .str "met"]]),
      (.str "true", .object [(.str "script", .list [
        .object [(.str "command", .str "EVENT_STOP"), (.str "true", .int 7)]])]),
      (.str "false", .int 0)]])]

/-- The script in `wrappedFile`. -/
def wrappedScript : Script := [.whenSet (.str "met") [.plain .stop []] []]

theorem readScript_follows_grammar_wrapped :
    readScript wrappedFile = .ok wrappedScript ∧ IsScript wrappedFile ∧
    (∃ items, wrappedFile.items? = some items ∧ Describes items wrappedScript ∧
      countReached items = 2) ∧
    wrappedFile.IsJson ∧ (Value.list (Event.writtenAll wrappedScript)).IsJson := by
  have hread : readScript wrappedFile = .ok wrappedScript := rfl
  have hjson : wrappedFile.IsJson := by
    simp [wrappedFile, Fields.Named, Value.isJson_list, Value.isJson_object, Value.IsJson.scalar]
  have hnamed : ∀ node, Script.Contains wrappedScript node → node.args.Named := by
    intro node hnode
    rcases hnode with _ | hlater | hstop | hempty
    · simp [Event.args, Event.whenSet, Fields.Named]
    · cases hlater
    · rcases hstop with _ | hlater
      · simp [Event.args, Fields.Named]
      · cases hlater
    · cases hempty
  obtain ⟨hgrammar, hscript⟩ := readScript_follows_grammar wrappedFile
  obtain ⟨⟨items, hitems, hdescribes, hcount⟩, -, -, hwritten⟩ := hscript _ hread
  exact ⟨hread, hgrammar.mp ⟨_, hread⟩, ⟨items, hitems, hdescribes, hcount.symm⟩, hjson,
    hwritten hjson hnamed⟩

end SceneScript
