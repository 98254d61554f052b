import SceneScript.Proofs.Wording
import SceneScript.Script.Reading

/-!
# The reader, step by step

The reader goes through an object field by field.  Here each of its parts is told by name
instead: what stands under `script`, `true` and `false` as the list of values that is gone
through (`Value.items?`, `Value.bodyItems?`), what stands under `command` as the kind it names,
what stands under `args` as the arguments it gives.  Values nest, so an argument about a whole
script file is an induction over such lists (`items_induction`).
-/

namespace SceneScript

/-! ## What stands under a name -/

namespace Fields

theorem get_cons (key : Scalar) (v : Value) (rest : Fields) (name : String) :
    get ((key, v) :: rest) name = if key.same (.str name) then v else get rest name := by
  unfold get find?
  rw [List.find?_cons]
  cases key.same (.str name) <;> rfl

/-- What is read under a name is a field, or null if there is none. -/
theorem get_mem (fields : Fields) (name : String) :
    get fields name = .null ∨ ∃ key, (key, get fields name) ∈ fields := by
  induction fields with
  | nil => exact .inl rfl
  | cons field rest ih =>
      obtain ⟨key, v⟩ := field
      rw [get_cons]
      split
      · exact .inr ⟨key, List.mem_cons_self⟩
      · exact ih.imp_right fun ⟨other, hmem⟩ => ⟨other, List.mem_cons_of_mem _ hmem⟩

end Fields

namespace Value

/-- The values that stand for the events of a script: a list, or what an object has under
`script`. -/
def items? : Value → Option (List Value)
  | .list items => some items
  | .object fields =>
    match Fields.get fields "script" with
    | .list items => some items
    | v => if v.truthy then none else some []
  | .scalar _ => none

/-- The values that stand for the events of a body, which may be left out. -/
def bodyItems? (v : Value) : Option (List Value) := if v.truthy then v.items? else some []

theorem items?_eq_some {v : Value} {items : List Value} :
    v.items? = some items ↔
      v = .list items ∨
      ∃ fields, v = .object fields ∧
        (Fields.get fields "script" = .list items ∨
          (Fields.get fields "script").truthy = false ∧ items = []) := by
  constructor
  · intro h
    unfold items? at h
    split at h
    · cases h
      exact .inl rfl
    · rename_i fields
      refine .inr ⟨fields, rfl, ?_⟩
      split at h
      · rename_i hlist
        cases h
        exact .inl hlist
      · split at h
        · cases h
        · rename_i hfalsy
          cases h
          exact .inr ⟨Bool.eq_false_iff.mpr hfalsy, rfl⟩
    · cases h
  · rintro (rfl | ⟨fields, rfl, hlist | ⟨hfalsy, rfl⟩⟩)
    · rfl
    · rw [items?, hlist]
    · unfold items?
      dsimp only
      split
      · rename_i items hlist
        rw [hlist] at hfalsy
        cases items with
        | nil => rfl
        | cons item rest => cases hfalsy
      · rw [if_neg (Bool.eq_false_iff.mp hfalsy)]

theorem bodyItems?_eq_some {v : Value} {items : List Value} :
    v.bodyItems? = some items ↔
      v.truthy = false ∧ items = [] ∨ v.truthy = true ∧ v.items? = some items := by
  unfold bodyItems?
  split
  · rename_i htruthy
    simp only [htruthy, Bool.true_eq_false, false_and, false_or, true_and]
  · rename_i hfalsy
    simp only [Bool.eq_false_iff.mpr hfalsy, Bool.false_eq_true, true_and, false_and, or_false,
      Option.some.injEq, eq_comm]

theorem sizeOf_list_pos {α : Type} [SizeOf α] (items : List α) : 0 < sizeOf items := by
  cases items with
  | nil => exact Nat.zero_lt_one
  | cons item rest =>
      rw [List.cons.sizeOf_spec]
      omega

theorem sizeOf_scalar_pos (s : Scalar) : 0 < sizeOf s := by
  cases s
  case null => exact Nat.zero_lt_one
  all_goals exact Nat.lt_of_lt_of_le Nat.zero_lt_one (Nat.le_add_right 1 _)

theorem sizeOf_nil_lt (v : Value) : sizeOf ([] : List Value) < sizeOf v := by
  have hnil : sizeOf ([] : List Value) = 1 := rfl
  cases v with
  | scalar s =>
      have hs := sizeOf_scalar_pos s
      rw [scalar.sizeOf_spec]
      omega
  | list items =>
      have hitems := sizeOf_list_pos items
      rw [list.sizeOf_spec]
      omega
  | object fields =>
      have hfields := sizeOf_list_pos fields
      rw [object.sizeOf_spec]
      omega

theorem sizeOf_get {fields : Fields} {name : String} (h : Fields.get fields name ≠ .null) :
    sizeOf (Fields.get fields name) < sizeOf (object fields) := by
  rcases Fields.get_mem fields name with hnull | ⟨key, hmem⟩
  · exact absurd hnull h
  · have hlt := List.sizeOf_lt_of_mem hmem
    simp only [Prod.mk.sizeOf_spec] at hlt
    simp only [object.sizeOf_spec]
    omega

theorem sizeOf_items {v : Value} {items : List Value} (h : v.items? = some items) :
    sizeOf items < sizeOf v := by
  rcases items?_eq_some.mp h with rfl | ⟨fields, rfl, hlist | ⟨-, rfl⟩⟩
  · simp only [list.sizeOf_spec]
    omega
  · have hlt := @sizeOf_get fields "script" (by rw [hlist]; nofun)
    rw [hlist, list.sizeOf_spec] at hlt
    omega
  · exact sizeOf_nil_lt _

/-- The items of a body are smaller than the event that has the body. -/
theorem sizeOf_bodyItems {fields : Fields} {name : String} {items : List Value}
    (h : (Fields.get fields name).bodyItems? = some items) :
    sizeOf items < sizeOf (object fields) := by
  rcases bodyItems?_eq_some.mp h with ⟨-, rfl⟩ | ⟨htruthy, hitems⟩
  · exact sizeOf_nil_lt _
  · apply Nat.lt_trans (sizeOf_items hitems)
    apply sizeOf_get
    intro hnull
    rw [hnull] at htruthy
    cases htruthy

end Value

/-- Induction over the values of a script file: what holds of all bodies under the names of the
first value, and of the values behind it, holds of the whole. -/
theorem items_induction {motive : List Value → Prop} (nil : motive [])
    (cons : ∀ (v : Value) (rest : List Value),
      (∀ fields name items, v = .object fields → (Fields.get fields name).bodyItems? = some items →
        motive items) →
      motive rest → motive (v :: rest)) :
    ∀ items : List Value, motive items := by
  intro items
  cases items with
  | nil => exact nil
  | cons v rest =>
      refine cons v rest ?_ (items_induction nil cons rest)
      intro fields name items hobject hitems
      have hlt : sizeOf items < sizeOf v := hobject ▸ Value.sizeOf_bodyItems hitems
      exact items_induction nil cons items
termination_by items => sizeOf items
decreasing_by
  all_goals
    simp only [List.cons.sizeOf_spec]
    omega

/-! ## The reader by name and by item -/

theorem readWrapped_eq (fields : Fields) :
    readWrapped fields = readListed (Fields.get fields "script") := by
  induction fields with
  | nil => rw [readWrapped]; rfl
  | cons field rest ih =>
      obtain ⟨key, v⟩ := field
      rw [readWrapped, Fields.get_cons, ih]
      split <;> rfl

theorem readBody_eq (name : String) (fields : Fields) :
    readBody name fields =
      if (Fields.get fields name).truthy then readScript (Fields.get fields name) else .ok [] := by
  induction fields with
  | nil => rw [readBody]; rfl
  | cons field rest ih =>
      obtain ⟨key, v⟩ := field
      rw [readBody, Fields.get_cons, ih]
      split <;> rfl

theorem readListed_absent {v : Value} (h : v.truthy = false) : readListed v = .ok [] := by
  unfold readListed
  split
  · rename_i items
    cases items with
    | nil => rw [readEvents]
    | cons item rest => cases h
  · rw [if_neg (Bool.eq_false_iff.mp h)]

theorem readScript_some {v : Value} {items : List Value} (h : v.items? = some items) :
    readScript v = readEvents items := by
  rcases Value.items?_eq_some.mp h with rfl | ⟨fields, rfl, hlist | ⟨hfalsy, rfl⟩⟩
  · rw [readScript]
  · rw [readScript, readWrapped_eq, hlist, readListed]
  · rw [readScript, readWrapped_eq, readListed_absent hfalsy, readEvents]

/-- What holds no list of events is refused with a sentence. -/
theorem readScript_none {v : Value} (h : v.items? = none) :
    ∃ typeName, readScript v = .error (.malformed (.scriptNotList typeName)) := by
  unfold Value.items? at h
  split at h
  · cases h
  · rename_i fields
    rw [readScript, readWrapped_eq]
    split at h
    · cases h
    · rename_i hlist
      split at h
      · rename_i htruthy
        rw [readListed, if_pos htruthy]
        · exact ⟨_, rfl⟩
        · exact hlist
      · cases h
  · rw [readScript]
    exact ⟨_, rfl⟩

theorem readBody_some {name : String} {fields : Fields} {items : List Value}
    (h : (Fields.get fields name).bodyItems? = some items) :
    readBody name fields = readEvents items := by
  rw [readBody_eq]
  rcases Value.bodyItems?_eq_some.mp h with ⟨hfalsy, rfl⟩ | ⟨htruthy, hitems⟩
  · rw [if_neg (Bool.eq_false_iff.mp hfalsy), readEvents]
  · rw [if_pos htruthy, readScript_some hitems]

theorem readBody_none {name : String} {fields : Fields}
    (h : (Fields.get fields name).bodyItems? = none) :
    ∃ typeName, readBody name fields = .error (.malformed (.scriptNotList typeName)) := by
  unfold Value.bodyItems? at h
  rw [readBody_eq]
  split at h
  · rename_i htruthy
    rw [if_pos htruthy]
    exact readScript_none h
  · cases h

theorem readScript_ok {v : Value} {script : Script} :
    readScript v = .ok script ↔ ∃ items, v.items? = some items ∧ readEvents items = .ok script := by
  constructor
  · intro h
    cases hitems : v.items? with
    | none =>
        obtain ⟨_, hrefused⟩ := readScript_none hitems
        rw [hrefused] at h
        cases h
    | some items => exact ⟨items, rfl, readScript_some hitems ▸ h⟩
  · rintro ⟨items, hitems, h⟩
    rw [readScript_some hitems, h]

theorem readBody_ok {name : String} {fields : Fields} {script : Script} :
    readBody name fields = .ok script ↔
      ∃ items, (Fields.get fields name).bodyItems? = some items ∧
        readEvents items = .ok script := by
  constructor
  · intro h
    cases hitems : (Fields.get fields name).bodyItems? with
    | none =>
        obtain ⟨_, hrefused⟩ := readBody_none hitems
        rw [hrefused] at h
        cases h
    | some items => exact ⟨items, rfl, readBody_some hitems ▸ h⟩
  · rintro ⟨items, hitems, h⟩
    rw [readBody_some hitems, h]

/-! ## Commands -/

theorem EventKind.ofCommand?_eq_some {command : String} {kind : EventKind} :
    ofCommand? command = some kind ↔ command = kind.command := by
  constructor
  · intro h
    have hfound := List.find?_some h
    exact (eq_of_beq hfound).symm
  · rintro rfl
    cases kind <;> rfl

theorem EventKind.ofValue_ok {v : Value} {kind : EventKind} :
    ofValue v = .ok kind ↔ v = .str kind.command := by
  constructor
  · intro h
    unfold ofValue at h
    split at h
    · split at h
      · rename_i hkind
        cases h
        rw [ofCommand?_eq_some.mp hkind]
      · cases h
    · cases h
  · rintro rfl
    rw [ofValue, ofCommand?_eq_some.mpr rfl]

theorem readHeader_ok {fields : Fields} {kind : EventKind} {args : Fields} :
    readHeader fields = .ok (kind, args) ↔
      Fields.get fields "command" = .str kind.command ∧
        (Fields.get fields "args").toFields = .ok args := by
  unfold readHeader
  constructor
  · intro h
    dsimp only at h
    split at h
    · cases h
    · obtain ⟨kind', hkind, h⟩ := result_bind_ok.mp h
      obtain ⟨args', hargs, h⟩ := result_bind_ok.mp h
      cases h
      exact ⟨EventKind.ofValue_ok.mp hkind, hargs⟩
  · rintro ⟨hcommand, hargs⟩
    rw [hcommand, hargs]
    dsimp only
    rw [if_neg (by exact Bool.false_ne_true), EventKind.ofValue_ok.mpr rfl]
    rfl

/-! ## Arguments -/

namespace Value

/-- The value has two elements, and the first can name a field. -/
def IsPair (v : Value) : Prop := ∃ key value, v.elements = .ok [.scalar key, value]

/-- The value gives named arguments: it may be left out, be an object, or be a list of pairs. -/
inductive IsArguments : Value → Prop
  | absent {v : Value} : v.truthy = false → IsArguments v
  | object {fields : Fields} : IsArguments (.object fields)
  | pairs {items : List Value} : (∀ item ∈ items, IsPair item) → IsArguments (.list items)

theorem isPair_of_elements {v key value : Value} {name : Scalar} (h : v.elements = .ok [key, value])
    (hname : key.key? = some name) : v.IsPair := by
  cases key with
  | scalar s => exact ⟨s, value, h⟩
  | list items => cases hname
  | object fields => cases hname

theorem fieldsOfPairs_ok_iff (items : List Value) (index : Nat) (done : Fields) :
    (∃ args, fieldsOfPairs index done items = .ok args) ↔ ∀ item ∈ items, IsPair item := by
  induction items generalizing index done with
  | nil => exact ⟨fun _ _ hmem => absurd hmem List.not_mem_nil, fun _ => ⟨done, rfl⟩⟩
  | cons item rest ih =>
      rw [List.forall_mem_cons]
      constructor
      · rintro ⟨args, h⟩
        rw [fieldsOfPairs] at h
        obtain ⟨elements, helements, h⟩ := result_bind_ok.mp h
        split at h
        · rename_i key value
          split at h
          · rename_i name hname
            exact ⟨isPair_of_elements helements hname, (ih _ _).mp ⟨args, h⟩⟩
          · cases h
        · cases h
      · rintro ⟨⟨key, value, hpair⟩, hrest⟩
        obtain ⟨args, h⟩ := (ih (index + 1) (Fields.put done key value)).mpr hrest
        refine ⟨args, ?_⟩
        rw [fieldsOfPairs, hpair]
        exact h

theorem toFields_absent {v : Value} (h : v.truthy = false) : v.toFields = .ok [] := by
  unfold toFields
  rw [if_neg (Bool.eq_false_iff.mp h)]

theorem toFields_object (fields : Fields) : (Value.object fields).toFields = .ok fields := by
  cases fields with
  | nil => rfl
  | cons field rest => rfl

theorem toFields_list (items : List Value) :
    (Value.list items).toFields = fieldsOfPairs 0 [] items := by
  cases items with
  | nil => rfl
  | cons item rest => rfl

/-- A text gives no arguments: its first character is no pair. -/
theorem toFields_text {s : String} (h : (Value.str s).truthy = true) :
    (Value.str s).toFields = .error (.malformed (.notAPair 0 1)) := by
  unfold toFields
  rw [if_pos h]
  show fieldsOfPairs 0 [] (s.toList.map fun c => .str (String.singleton c)) = _
  cases hchars : s.toList with
  | nil =>
      rw [String.toList_eq_nil_iff.mp hchars] at h
      cases h
  | cons c rest => rw [List.map_cons, fieldsOfPairs, elements, String.toList_singleton]; rfl

/-- Of the other scalars, none that counts as given has elements. -/
theorem toFields_scalar {s : Scalar} (htruthy : (Value.scalar s).truthy = true)
    (htext : ∀ text, s ≠ .str text) : (Value.scalar s).toFields = .error .wrongType := by
  unfold toFields
  rw [if_pos htruthy]
  cases s with
  | str text => exact absurd rfl (htext text)
  | _ => rfl

theorem toFields_ok_iff (v : Value) : (∃ args, v.toFields = .ok args) ↔ IsArguments v := by
  constructor
  · rintro ⟨args, h⟩
    cases v with
    | object fields => exact .object
    | list items =>
        rw [toFields_list] at h
        exact .pairs ((fieldsOfPairs_ok_iff items 0 []).mp ⟨args, h⟩)
    | scalar s =>
        cases htruthy : s.truthy with
        | false => exact .absent htruthy
        | true =>
            by_cases htext : ∃ text, s = .str text
            · obtain ⟨text, rfl⟩ := htext
              rw [toFields_text htruthy] at h
              cases h
            · rw [toFields_scalar htruthy fun text heq => htext ⟨text, heq⟩] at h
              cases h
  · intro h
    cases h with
    | absent hfalsy => exact ⟨[], toFields_absent hfalsy⟩
    | @object fields => exact ⟨fields, toFields_object fields⟩
    | @pairs items hpairs =>
        rw [toFields_list]
        exact (fieldsOfPairs_ok_iff items 0 []).mpr hpairs

end Value

/-! ## Events -/

theorem readEvents_cons (v : Value) (rest : List Value) :
    readEvents (v :: rest) =
      readEvent v >>= fun event => readEvents rest >>= fun events => .ok (event :: events) := by
  rw [readEvents]
  rfl

/-- An event is read from its header and, if the kind has them, from its bodies. -/
theorem readEvent_of_header {fields args : Fields} {kind : EventKind}
    (h : readHeader fields = .ok (kind, args)) : readEvent (.object fields) =
      if kind.isConditional then
        readBody "true" fields >>= fun whenTrue => readBody "false" fields >>= fun whenFalse =>
          .ok (.conditional kind args whenTrue whenFalse)
      else .ok (.plain kind args) := by
  rw [readEvent, h]
  rfl

/-- What is no object is refused with a sentence. -/
theorem readEvent_other {v : Value} (h : ∀ fields, v ≠ .object fields) :
    readEvent v = .error (.malformed (.eventNotObject v.typeName)) := by
  rw [readEvent]
  exact h

theorem readEvent_object {v : Value} {event : Event} (h : readEvent v = .ok event) :
    ∃ fields kind args, v = .object fields ∧ readHeader fields = .ok (kind, args) := by
  by_cases hobject : ∃ fields, v = .object fields
  · obtain ⟨fields, rfl⟩ := hobject
    rw [readEvent] at h
    obtain ⟨⟨kind, args⟩, hheader, -⟩ := result_bind_ok.mp h
    exact ⟨fields, kind, args, rfl, hheader⟩
  · rw [readEvent_other fun fields heq => hobject ⟨fields, heq⟩] at h
    cases h

end SceneScript
