import SceneScript.CommandLine.FileCompilation
import SceneScript.Proofs.Acceptance
import SceneScript.Proofs.Grammar
import SceneScript.Proofs.Isolation

/-!
# What is told about bad input

A compilation that fails should say so in words: that the input is malformed, or what the
generator could not find or write.  It does, with three exceptions.

Where a list or arguments are wanted, a number, a truth value or null cannot be gone through,
and in a pair a list or an object cannot be the name.  There no sentence is formed: the reading
ends with a value of the wrong type.  `MistypedScript` and `MistypedTables` say where that
happens.  In a script it depends on the order of reading, since a malformed event that comes
first is reported first; in the tables it does not, since beyond their outer form nothing in
them is malformed.

A camera speed may be so large that there is no power of two for it.  Generation ends there, and
the command line does not know what to say.

An error of generation may hold an integer of too many digits, such as the speed byte of a
camera.  The command line takes the error for one that it reports, and fails while it puts it in
words.
-/

namespace SceneScript

/-- How a reading may fail: with a sentence about malformed input, or, in the given case, with a
wrong type. -/
def Fault.FromReading (fault : Fault) (mistyped : Prop) : Prop :=
  (∃ cause, fault = .malformed cause) ∨ fault = .wrongType ∧ mistyped

theorem Fault.FromReading.imp {fault : Fault} {p q : Prop} (h : fault.FromReading p) (hpq : p → q) :
    fault.FromReading q :=
  Or.imp_right (And.imp_right hpq) h

/-! ## Arguments -/

namespace Value

/-- The value has no elements: it is a scalar, and no text. -/
def isAtom : Value → Bool
  | .str _ => false
  | .scalar _ => true
  | _ => false

theorem elements_error {v : Value} {fault : Fault} :
    v.elements = .error fault ↔ fault = .wrongType ∧ v.isAtom = true := by
  constructor
  · intro h
    cases v with
    | scalar s => cases s <;> cases h <;> exact ⟨rfl, rfl⟩
    | list items => cases h
    | object fields => cases h
  · rintro ⟨rfl, hatom⟩
    cases v with
    | scalar s => cases s <;> first | rfl | cases hatom
    | list items => cases hatom
    | object fields => cases hatom

/-- In a list of pairs, behind nothing but pairs, stands an atom or a pair whose first half
cannot be a name. -/
inductive MistypedPairs : List Value → Prop
  | atom {item : Value} {rest : List Value} : item.isAtom = true → MistypedPairs (item :: rest)
  | key {item key value : Value} {rest : List Value} : item.elements = .ok [key, value] →
      key.key? = none → MistypedPairs (item :: rest)
  | later {item : Value} {rest : List Value} : item.IsPair → MistypedPairs rest →
    MistypedPairs (item :: rest)

/-- The value counts as given where arguments are wanted, and is an atom or a list of such pairs. -/
inductive MistypedArguments : Value → Prop
  | atom {v : Value} : v.truthy = true → v.isAtom = true → MistypedArguments v
  | pairs {items : List Value} : MistypedPairs items → MistypedArguments (.list items)

theorem fieldsOfPairs_error {items : List Value} {index : Nat} {done : Fields} {fault : Fault}
    (h : fieldsOfPairs index done items = .error fault) :
    fault.FromReading (MistypedPairs items) := by
  induction items generalizing index done with
  | nil => cases h
  | cons item rest ih =>
      rw [fieldsOfPairs] at h
      rcases result_bind_error.mp h with helements | ⟨elements, helements, h⟩
      · obtain ⟨rfl, hatom⟩ := elements_error.mp helements
        exact .inr ⟨rfl, .atom hatom⟩
      · split at h
        · rename_i key value
          split at h
          · rename_i name hname
            have hpair : item.IsPair := isPair_of_elements helements hname
            exact (ih h).imp (.later hpair)
          · rename_i hname
            cases h
            exact .inr ⟨rfl, .key helements hname⟩
        · cases h
          exact .inl ⟨_, rfl⟩

theorem fieldsOfPairs_of_mistyped {items : List Value} (h : MistypedPairs items) (index : Nat)
    (done : Fields) : fieldsOfPairs index done items = .error .wrongType := by
  induction h generalizing index done with
  | atom hatom =>
      rw [fieldsOfPairs, elements_error.mpr ⟨rfl, hatom⟩]
      rfl
  | key helements hkey =>
      rw [fieldsOfPairs, helements]
      simp only [bind, Except.bind, hkey]
  | later hpair _ ih =>
      obtain ⟨key, value, helements⟩ := hpair
      rw [fieldsOfPairs, helements]
      exact ih (index + 1) (Fields.put done key value)

theorem toFields_error {v : Value} {fault : Fault} (h : v.toFields = .error fault) :
    fault.FromReading v.MistypedArguments := by
  cases v with
  | object fields =>
      rw [toFields_object] at h
      cases h
  | list items =>
      rw [toFields_list] at h
      exact (fieldsOfPairs_error h).imp .pairs
  | scalar s =>
      cases htruthy : (Value.scalar s).truthy with
      | false =>
          rw [toFields_absent htruthy] at h
          cases h
      | true =>
          cases s with
          | str text =>
              rw [toFields_text htruthy] at h
              cases h
              exact .inl ⟨_, rfl⟩
          | _ =>
              rw [toFields_scalar htruthy (by simp)] at h
              cases h
              exact .inr ⟨rfl, .atom htruthy rfl⟩

theorem toFields_of_mistyped {v : Value} (h : v.MistypedArguments) :
    v.toFields = .error .wrongType := by
  cases h with
  | atom htruthy hatom =>
      cases v with
      | scalar s =>
          apply toFields_scalar htruthy
          rintro text rfl
          cases hatom
      | list items => cases hatom
      | object fields => cases hatom
  | @pairs items hpairs =>
      rw [toFields_list]
      exact fieldsOfPairs_of_mistyped hpairs 0 []

end Value

/-! ## Scripts -/

/-- Along a list of events, behind nothing but events and with a known command, stands one whose
arguments are mistyped, or one in whose bodies, read in their order, the same happens. -/
inductive MistypedEvents : List Value → Prop
  | args {fields : Fields} {kind : EventKind} {rest : List Value} :
      Fields.get fields "command" = .str kind.command →
      (Fields.get fields "args").MistypedArguments → MistypedEvents (.object fields :: rest)
  | inTrue {fields : Fields} {kind : EventKind} {trueItems rest : List Value} :
      Fields.get fields "command" = .str kind.command → (Fields.get fields "args").IsArguments →
      kind.isConditional = true → (Fields.get fields "true").bodyItems? = some trueItems →
      MistypedEvents trueItems → MistypedEvents (.object fields :: rest)
  | inFalse {fields : Fields} {kind : EventKind} {falseItems rest : List Value} :
      Fields.get fields "command" = .str kind.command → (Fields.get fields "args").IsArguments →
      kind.isConditional = true → IsBody (Fields.get fields "true") →
      (Fields.get fields "false").bodyItems? = some falseItems → MistypedEvents falseItems →
      MistypedEvents (.object fields :: rest)
  | later {v : Value} {rest : List Value} : IsEvent v → MistypedEvents rest →
    MistypedEvents (v :: rest)

/-- The value holds such a list of events. -/
def MistypedScript (v : Value) : Prop := ∃ items, v.items? = some items ∧ MistypedEvents items

theorem EventKind.ofValue_error {v : Value} {fault : Fault} (h : ofValue v = .error fault) :
    ∃ cause, fault = .malformed cause := by
  unfold ofValue at h
  split at h
  · split at h
    · cases h
    · cases h
      exact ⟨_, rfl⟩
  · cases h
    exact ⟨_, rfl⟩

theorem readHeader_error {fields : Fields} {fault : Fault} (h : readHeader fields = .error fault) :
    fault.FromReading (∃ kind : EventKind, Fields.get fields "command" = .str kind.command ∧
      (Fields.get fields "args").MistypedArguments) := by
  unfold readHeader at h
  dsimp only at h
  split at h
  · cases h
    exact .inl ⟨_, rfl⟩
  · rcases result_bind_error.mp h with hkind | ⟨kind, hkind, h⟩
    · exact .inl (EventKind.ofValue_error hkind)
    · rcases result_bind_error.mp h with hargs | ⟨args, -, h⟩
      · exact (Value.toFields_error hargs).imp fun hmistyped =>
          ⟨kind, EventKind.ofValue_ok.mp hkind, hmistyped⟩
      · cases h

theorem readHeader_of_mistyped {fields : Fields} {kind : EventKind}
    (hcommand : Fields.get fields "command" = .str kind.command)
    (hargs : (Fields.get fields "args").MistypedArguments) :
    readHeader fields = .error .wrongType := by
  unfold readHeader
  rw [hcommand, Value.toFields_of_mistyped hargs]
  dsimp only
  rw [if_neg (by exact Bool.false_ne_true), EventKind.ofValue_ok.mpr rfl]
  rfl

/-- An event fails to be read at its header, or in one of its bodies. -/
theorem readEvent_error {fields : Fields} {fault : Fault}
    (h : readEvent (.object fields) = .error fault) : readHeader fields = .error fault ∨
    ∃ kind args, readHeader fields = .ok (kind, args) ∧ kind.isConditional = true ∧
      (readBody "true" fields = .error fault ∨
        (∃ whenTrue, readBody "true" fields = .ok whenTrue) ∧
        readBody "false" fields = .error fault) := by
  cases hheader : readHeader fields with
  | error other =>
      rw [readEvent, hheader] at h
      cases h
      exact .inl rfl
  | ok header =>
      obtain ⟨kind, args⟩ := header
      rw [readEvent_of_header hheader] at h
      split at h
      · rename_i hkind
        refine .inr ⟨kind, args, rfl, hkind, ?_⟩
        rcases result_bind_error.mp h with htrue | ⟨whenTrue, htrue, h⟩
        · exact .inl htrue
        · rcases result_bind_error.mp h with hfalse | ⟨_, _, h⟩
          · exact .inr ⟨⟨whenTrue, htrue⟩, hfalse⟩
          · cases h
      · cases h

/-- What goes wrong in a body goes wrong in its items, or it has none. -/
theorem readBody_error {name : String} {fields : Fields} {fault : Fault}
    (h : readBody name fields = .error fault) :
    (∃ cause, fault = .malformed cause) ∨
    ∃ items, (Fields.get fields name).bodyItems? = some items ∧
      readEvents items = .error fault := by
  cases hitems : (Fields.get fields name).bodyItems? with
  | none =>
      obtain ⟨_, hrefused⟩ := readBody_none hitems
      rw [hrefused] at h
      cases h
      exact .inl ⟨_, rfl⟩
  | some items => exact .inr ⟨items, rfl, readBody_some hitems ▸ h⟩

theorem readEvents_error {items : List Value} :
    ∀ {fault : Fault}, readEvents items = .error fault →
      fault.FromReading (MistypedEvents items) := by
  -- a reading that fails leaves no script to go by, so the induction is on the values
  induction items using items_induction with
  | nil =>
      intro fault h
      rw [readEvents] at h
      cases h
  | cons v rest ihBody ihRest =>
      intro fault h
      rw [readEvents_cons] at h
      rcases result_bind_error.mp h with hevent | ⟨event, hevent, h⟩
      · by_cases hobject : ∃ fields, v = .object fields
        · obtain ⟨fields, rfl⟩ := hobject
          rcases readEvent_error hevent with hheader | ⟨kind, args, hheader, hkind, hbody⟩
          · refine (readHeader_error hheader).imp ?_
            rintro ⟨kind, hcommand, hargs⟩
            exact .args hcommand hargs
          · obtain ⟨hcommand, hargs⟩ := readHeader_ok.mp hheader
            have harguments := (Value.toFields_ok_iff _).mp ⟨args, hargs⟩
            rcases hbody with htrue | ⟨htrue, hfalse⟩
            · rcases readBody_error htrue with hcause | ⟨trueItems, hitems, htrue⟩
              · exact .inl hcause
              · exact (ihBody _ _ _ rfl hitems htrue).imp (.inTrue hcommand harguments hkind hitems)
            · have hwhenTrue := readBody_ok_iff_isBody.mp htrue
              rcases readBody_error hfalse with hcause | ⟨falseItems, hitems, hfalse⟩
              · exact .inl hcause
              · exact (ihBody _ _ _ rfl hitems hfalse).imp
                  (.inFalse hcommand harguments hkind hwhenTrue hitems)
        · rw [readEvent_other fun fields heq => hobject ⟨fields, heq⟩] at hevent
          cases hevent
          exact .inl ⟨_, rfl⟩
      · rcases result_bind_error.mp h with hrest | ⟨_, _, h⟩
        · exact (ihRest hrest).imp (.later (readEvent_ok_iff_isEvent.mp ⟨event, hevent⟩))
        · cases h

theorem readEvents_of_mistyped {items : List Value} (h : MistypedEvents items) :
    readEvents items = .error .wrongType := by
  induction h with
  | args hcommand hargs =>
      rw [readEvents_cons, readEvent, readHeader_of_mistyped hcommand hargs]
      rfl
  | inTrue hcommand hargs hkind hitems _ ih =>
      obtain ⟨args, hargs⟩ := (Value.toFields_ok_iff _).mpr hargs
      have hheader := readHeader_ok.mpr ⟨hcommand, hargs⟩
      rw [readEvents_cons, readEvent_of_header hheader, hkind, readBody_some hitems, ih]
      rfl
  | inFalse hcommand hargs hkind htrue hitems _ ih =>
      obtain ⟨args, hargs⟩ := (Value.toFields_ok_iff _).mpr hargs
      obtain ⟨whenTrue, htrue⟩ := readBody_ok_iff_isBody.mpr htrue
      have hheader := readHeader_ok.mpr ⟨hcommand, hargs⟩
      rw [readEvents_cons, readEvent_of_header hheader, hkind, htrue, readBody_some hitems, ih]
      rfl
  | later hevent _ ih =>
      obtain ⟨event, hevent⟩ := readEvent_ok_iff_isEvent.mpr hevent
      rw [readEvents_cons, hevent, ih]
      rfl

theorem readScript_error {v : Value} {fault : Fault} (h : readScript v = .error fault) :
    fault.FromReading (MistypedScript v) := by
  cases hitems : v.items? with
  | none =>
      obtain ⟨_, hrefused⟩ := readScript_none hitems
      rw [hrefused] at h
      cases h
      exact .inl ⟨_, rfl⟩
  | some items =>
      rw [readScript_some hitems] at h
      exact (readEvents_error h).imp fun hmistyped => ⟨items, hitems, hmistyped⟩

theorem readScript_of_mistyped {v : Value} (h : MistypedScript v) :
    readScript v = .error .wrongType := by
  obtain ⟨items, hitems, hmistyped⟩ := h
  rw [readScript_some hitems, readEvents_of_mistyped hmistyped]

/-! ## Tables -/

/-- A section of the tables counts as given and is an atom, or the actors of a scene are. -/
def MistypedTables (v : Value) : Prop :=
  ∃ fields scenes, v = .object fields ∧
    (Fields.get fields "actors").orElse (.object []) = .object scenes ∧
    ((∃ name ∈ ["strings", "flags", "scenes", "music"],
        (Fields.get fields name).truthy = true ∧ (Fields.get fields name).isAtom = true) ∨
      ∃ entry ∈ scenes, entry.2.isAtom = true)

namespace Symbols

theorem readSection_error {v : Value} {fault : Fault} :
    readSection v = .error fault ↔ fault = .wrongType ∧ v.truthy = true ∧ v.isAtom = true := by
  rw [readSection, Value.elements_error, Value.orElse]
  split
  · rename_i htruthy
    simp only [htruthy, true_and]
  · rename_i hfalsy
    simp only [hfalsy, false_and, and_false, Value.isAtom, Bool.false_eq_true]

theorem readActors_error {scenes : Fields} {fault : Fault} :
    readActors scenes = .error fault ↔
      fault = .wrongType ∧ ∃ entry ∈ scenes, entry.2.isAtom = true := by
  induction scenes with
  | nil =>
      constructor
      · intro h
        cases h
      · rintro ⟨-, _, hmem, -⟩
        cases hmem
  | cons entry rest ih =>
      obtain ⟨scene, entries⟩ := entry
      rw [readActors, result_bind_error, Value.elements_error]
      constructor
      · rintro (⟨hfault, hatom⟩ | ⟨actors, -, h⟩)
        · exact ⟨hfault, _, List.mem_cons_self, hatom⟩
        · rcases result_bind_error.mp h with hrest | ⟨_, _, h⟩
          · obtain ⟨hfault, entry, hmem, hatom⟩ := ih.mp hrest
            exact ⟨hfault, entry, List.mem_cons_of_mem _ hmem, hatom⟩
          · cases h
      · rintro ⟨rfl, entry, hmem, hatom⟩
        rcases List.mem_cons.mp hmem with rfl | hmem
        · exact .inl ⟨rfl, hatom⟩
        · cases helements : entries.elements with
          | error fault => exact .inl ⟨rfl, (Value.elements_error.mp helements).2⟩
          | ok actors =>
              have hrest := ih.mpr ⟨rfl, entry, hmem, hatom⟩
              exact .inr ⟨actors, rfl, result_bind_error.mpr (.inl hrest)⟩

/-- Tables whose outer form is right fail to be read only because they are mistyped. -/
theorem ofValue_object_error {fields scenes : Fields} {fault : Fault}
    (hactors : (Fields.get fields "actors").orElse (.object []) = .object scenes)
    (h : ofValue (.object fields) = .error fault) :
    fault = .wrongType ∧ MistypedTables (.object fields) := by
  have hsection {name : String} (hname : name ∈ ["strings", "flags", "scenes", "music"])
      (hread : readSection (Fields.get fields name) = .error fault) :
      fault = .wrongType ∧ MistypedTables (.object fields) := by
    obtain ⟨hfault, hmistyped⟩ := readSection_error.mp hread
    exact ⟨hfault, fields, scenes, rfl, hactors, .inl ⟨name, hname, hmistyped⟩⟩
  rw [ofValue, hactors] at h
  rcases result_bind_error.mp h with hread | ⟨strings, -, h⟩
  · exact hsection (by simp) hread
  rcases result_bind_error.mp h with hread | ⟨flags, -, h⟩
  · exact hsection (by simp) hread
  rcases result_bind_error.mp h with hread | ⟨sceneList, -, h⟩
  · exact hsection (by simp) hread
  rcases result_bind_error.mp h with hread | ⟨music, -, h⟩
  · exact hsection (by simp) hread
  rcases result_bind_error.mp h with hread | ⟨actors, -, h⟩
  · obtain ⟨hfault, hmistyped⟩ := readActors_error.mp hread
    exact ⟨hfault, fields, scenes, rfl, hactors, .inr hmistyped⟩
  · cases h

theorem ofValue_error {v : Value} {fault : Fault} (h : ofValue v = .error fault) :
    fault.FromReading (MistypedTables v) := by
  by_cases hobject : ∃ fields scenes, v = .object fields ∧
      (Fields.get fields "actors").orElse (.object []) = .object scenes
  · obtain ⟨fields, scenes, rfl, hactors⟩ := hobject
    exact .inr (ofValue_object_error hactors h)
  · unfold ofValue at h
    split at h
    · split at h
      · rename_i fields _ scenes hactors
        exact absurd ⟨fields, scenes, rfl, hactors⟩ hobject
      · cases h
        exact .inl ⟨_, rfl⟩
    · cases h
      exact .inl ⟨_, rfl⟩

theorem ofValue_of_mistyped {v : Value} (h : MistypedTables v) : ofValue v = .error .wrongType := by
  obtain ⟨fields, scenes, rfl, hactors, hmistyped⟩ := h
  cases hread : ofValue (.object fields) with
  | error fault => rw [(ofValue_object_error hactors hread).1]
  | ok symbols =>
      rw [ofValue, hactors] at hread
      obtain ⟨strings, hstrings, hread⟩ := result_bind_ok.mp hread
      obtain ⟨flags, hflags, hread⟩ := result_bind_ok.mp hread
      obtain ⟨sceneList, hscenes, hread⟩ := result_bind_ok.mp hread
      obtain ⟨music, hmusic, hread⟩ := result_bind_ok.mp hread
      obtain ⟨actors, hreadActors, hread⟩ := result_bind_ok.mp hread
      rcases hmistyped with ⟨name, hname, hmistyped⟩ | hmistyped
      · have hfailed := readSection_error.mpr ⟨rfl, hmistyped⟩
        simp only [List.mem_cons, List.not_mem_nil, or_false] at hname
        rcases hname with rfl | rfl | rfl | rfl
        · cases hstrings.symm.trans hfailed
        · cases hflags.symm.trans hfailed
        · cases hscenes.symm.trans hfailed
        · cases hmusic.symm.trans hfailed
      · cases hreadActors.symm.trans (readActors_error.mpr ⟨rfl, hmistyped⟩)

end Symbols

/-! ## Compilations -/

/-- The fault is told in words: the input is malformed, a text or a flag is in no table, or the
output does not hold a value. -/
inductive Fault.IsReported : Fault → Prop
  | malformed {cause : Malformed} : IsReported (.malformed cause)
  | stringNotFound {text : Value} : IsReported (.compile (.stringNotFound text))
  | flagNotFound {flag : Value} : IsReported (.compile (.flagNotFound flag))
  | outputFailed {command args position value : Value} :
      IsReported (.compile (.outputFailed command args position value))

/-- The command line has words for such a fault, unless it is an error with an integer of too
many digits. -/
theorem Fault.IsReported.report_ok {fault : Fault} (h : fault.IsReported) (verbose : Bool) :
    (∃ lines, fault.report verbose = .ok lines) ↔ ∀ e, fault = .compile e → e.Short := by
  have herror : ∀ e : CompileError, (∃ lines, (Fault.compile e).report verbose = .ok lines) ↔
      ∀ other, Fault.compile e = .compile other → other.Short := by
    intro e
    simp only [Fault.compile.injEq, forall_eq']
    rw [← e.told_message.ok_iff]
    constructor
    · rintro ⟨lines, hlines⟩
      obtain ⟨text, htext, -⟩ := result_bind_ok.mp hlines
      exact ⟨text, Fault.limited_ok.mp htext⟩
    · rintro ⟨text, htext⟩
      exact ⟨_, result_bind_ok.mpr ⟨text, Fault.limited_ok.mpr htext, rfl⟩⟩
  cases h with
  | @malformed cause =>
      refine iff_of_true ?_ fun _ hcompile => (by cases hcompile)
      cases cause <;> exact ⟨_, rfl⟩
  | stringNotFound => exact herror _
  | flagNotFound => exact herror _
  | outputFailed => exact herror _

/-- The script is mistyped or, the script being one, the tables are. -/
def Mistyped (script tables : Value) : Prop :=
  MistypedScript script ∨ IsScript script ∧ MistypedTables tables

/-- Generation has no other faults than those that are reported, but for a camera that is too
fast. -/
theorem Scope.isReported_of_generate {scope : Scope} {script : Script} {fault : Fault}
    {t : Generator} (h : scope.generate script {} = .error fault t) :
    fault.IsReported ∨ fault = .overflow ∧ ∃ event start, scope.Stands 0 script event start ∧
      event.kind ∈ [.cameraMoveTo, .cameraLock] ∧ TooFast (event.args.arg "speed" (.int 0)) := by
  rcases (fails_of_generate h).cause with ⟨event, start, hstands, hrefuses⟩ | ⟨_, _, _, _, rfl⟩
  · cases hrefuses with
    | missing hmissing =>
        cases hmissing with
        | text => exact .inl .stringNotFound
        | flag => exact .inl .flagNotFound
    | speed hkind hfast => exact .inr ⟨rfl, event, start, hstands, hkind, hfast⟩
    | encounter => exact .inl .malformed
    | untold => exact .inl .malformed
  · exact .inl .outputFailed

theorem Scope.ofScene_scalar (symbols : Symbols) (scene : Scalar) :
    ∃ scope, ofScene symbols (.scalar scene) = .ok scope := by
  have hactors : ∃ actors, symbols.sceneActors (.scalar scene) = .ok actors := by
    unfold Symbols.sceneActors
    split
    · exact ⟨[], rfl⟩
    · exact ⟨_, rfl⟩
  obtain ⟨actors, hactors⟩ := hactors
  rw [ofScene, hactors]
  exact ⟨_, rfl⟩

namespace Job

theorem alone_of_script_error {script : Value} {fault : Fault}
    (h : readScript script = .error fault) (tables scene : Value) :
    (values script tables).alone scene = .error fault := by
  rw [alone, prepare, read, h]
  rfl

theorem alone_of_tables_error {script tables : Value} {events : Script} {fault : Fault}
    (hscript : readScript script = .ok events) (h : Symbols.ofValue tables = .error fault)
    (scene : Value) : (values script tables).alone scene = .error fault := by
  rw [alone, prepare, read, hscript, h]
  rfl

theorem alone_of_read {script tables scene : Value} {events : Script} {symbols : Symbols}
    {scope : Scope} (hscript : readScript script = .ok events)
    (htables : Symbols.ofValue tables = .ok symbols) (htold : SceneTold scene)
    (hscope : Scope.ofScene symbols scene = .ok scope) :
    (values script tables).alone scene = outcome (scope.generate events) {} := by
  have hread : (values script tables).read = .ok (events, symbols) :=
    result_bind_ok.mpr ⟨events, hscript, result_bind_ok.mpr ⟨symbols, htables, rfl⟩⟩
  rw [alone, prepare_ok.mpr ⟨htold, symbols, hread, hscope⟩]

end Job

/-- The script has an event for the camera, in the scope of the tables and the scene, whose
speed is beyond all numbers. -/
def FilmsTooFast (script tables scene : Value) : Prop :=
  ∃ events symbols scope event start, readScript script = .ok events ∧
    Symbols.ofValue tables = .ok symbols ∧ Scope.ofScene symbols scene = .ok scope ∧
    scope.Stands 0 events event start ∧ event.kind ∈ [.cameraMoveTo, .cameraLock] ∧
    Scope.TooFast (event.args.arg "speed" (.int 0))

/-- The ways in which a job with values can fail. -/
theorem Job.alone_error {script tables scene : Value} {fault : Fault} (htold : SceneTold scene)
    (hscene : ∀ symbols, ∃ scope, Scope.ofScene symbols scene = .ok scope)
    (h : (Job.values script tables).alone scene = .error fault) :
    fault.IsReported ∨ fault = .wrongType ∧ Mistyped script tables ∨
      fault = .overflow ∧ FilmsTooFast script tables scene := by
  cases hscript : readScript script with
  | error cause =>
      rw [Job.alone_of_script_error hscript] at h
      cases h
      rcases readScript_error hscript with ⟨sentence, rfl⟩ | ⟨rfl, hmistyped⟩
      · exact .inl .malformed
      · exact .inr (.inl ⟨rfl, .inl hmistyped⟩)
  | ok events =>
      cases htables : Symbols.ofValue tables with
      | error cause =>
          rw [Job.alone_of_tables_error hscript htables] at h
          cases h
          rcases Symbols.ofValue_error htables with ⟨sentence, rfl⟩ | ⟨rfl, hmistyped⟩
          · exact .inl .malformed
          · have hisScript := readScript_ok_iff_isScript.mp ⟨events, hscript⟩
            exact .inr (.inl ⟨rfl, .inr ⟨hisScript, hmistyped⟩⟩)
      | ok symbols =>
          obtain ⟨scope, hscope⟩ := hscene symbols
          rw [Job.alone_of_read hscript htables htold hscope, outcome] at h
          cases hgenerate : scope.generate events {} with
          | ok program t =>
              rw [hgenerate] at h
              cases h
          | error cause t =>
              rw [hgenerate] at h
              cases h
              rcases Scope.isReported_of_generate hgenerate with
                hreported | ⟨rfl, event, start, hfast⟩
              · exact .inl hreported
              · exact .inr (.inr ⟨rfl, events, symbols, scope, event, start, hscript, htables,
                  hscope, hfast⟩)

/-- Whatever values are given as script and tables, in a scene that is named by a text or in
none, the compilation gives a program or a fault that is told in words, with two exceptions.  If
the values are mistyped, it ends with a value of the wrong type, and otherwise never.  If a
camera is too fast, it may end with a number that cannot be built, and otherwise never.

The command line reports the fault just if it is told in words and they can be found: not if an
error of generation holds an integer of too many digits.

Of times it is only said that they have chunks; the loop that produces them does not end for the
largest floats and for infinity.  Nor is it said that memory suffices for the speed of a camera. -/
theorem Compilation.compileValues_reports {session : Session}
    (hscene : session.scene = .null ∨ ∃ name, session.scene = .str name) (script tables : Value) :
    ((∃ program, outcome (compileValues script tables) session = .ok program) ∨
      ∃ fault, outcome (compileValues script tables) session = .error fault ∧
        (fault.IsReported ∨ fault = .wrongType ∧ Mistyped script tables ∨
          fault = .overflow ∧ FilmsTooFast script tables session.scene)) ∧
    (Mistyped script tables → outcome (compileValues script tables) session = .error .wrongType) ∧
    ∀ fault, outcome (compileValues script tables) session = .error fault →
      ((∃ lines, fault.report session.verbose = .ok lines) ↔
        fault.IsReported ∧ ∀ e, fault = .compile e → e.Short) := by
  have htold : SceneTold session.scene := by
    rcases hscene with hscene | ⟨name, hscene⟩
    · rw [hscene]
      exact sceneTold_null
    · rw [hscene]
      exact sceneTold_str name
  have hscope : ∀ symbols, ∃ scope, Scope.ofScene symbols session.scene = .ok scope := by
    intro symbols
    rcases hscene with hscene | ⟨name, hscene⟩
    · rw [hscene]
      exact Scope.ofScene_scalar symbols .null
    · rw [hscene]
      exact Scope.ofScene_scalar symbols (.str name)
  have halone : outcome (compileValues script tables) session =
      (Job.values script tables).alone session.scene := session.outcome_run (.values script tables)
  rw [halone]
  refine ⟨?_, ?_, ?_⟩
  · cases hrun : (Job.values script tables).alone session.scene with
    | ok program => exact .inl ⟨program, rfl⟩
    | error fault => exact .inr ⟨fault, rfl, Job.alone_error htold hscope hrun⟩
  · rintro (hscript | ⟨hscript, htables⟩)
    · exact Job.alone_of_script_error (readScript_of_mistyped hscript) _ _
    · obtain ⟨events, hscript⟩ := readScript_ok_iff_isScript.mpr hscript
      exact Job.alone_of_tables_error hscript (Symbols.ofValue_of_mistyped htables) _
  · intro fault hrun
    rcases Job.alone_error htold hscope hrun with hreported | ⟨rfl, -⟩ | ⟨rfl, -⟩
    · rw [and_iff_right hreported]
      exact hreported.report_ok session.verbose
    · refine iff_of_false ?_ ?_
      · rintro ⟨_, h⟩
        cases h
      · rintro ⟨h, -⟩
        cases h
    · refine iff_of_false ?_ ?_
      · rintro ⟨_, h⟩
        cases h
      · rintro ⟨h, -⟩
        cases h

/-- A test whose second body, behind an event that is all right, has one with a number among its
pairs. -/
def mistypedBody : Value :=
  .list [.object [(.str "command", .str "EVENT_IF_TRUE"),
    (.str "args", .object [(.str "flag", .str "met")]),
    (.str "false", .list [.object [(.str "command", .str "EVENT_STOP")],
      .object [(.str "command", .str "EVENT_WAIT"),
        (.str "args", .list [.list [.str "time", .int 1], .int 5])]])]]

/-- Tables in which a scene has null for its actors. -/
def mistypedActors : Value :=
  .object [(.str "flags", .list [.str "met"]), (.str "actors", .object [(.str "town", .null)])]

theorem mistypedScript_body : MistypedScript mistypedBody := by
  refine ⟨_, rfl, @MistypedEvents.inFalse _ .ifTrue _ _ rfl .object rfl (.absent rfl) rfl ?_⟩
  refine .later (@IsEvent.plain _ .stop rfl rfl (.absent rfl)) ?_
  exact @MistypedEvents.args _ .wait _ rfl (.pairs (.later ⟨_, _, rfl⟩ (.atom rfl)))

theorem mistypedTables_actors : MistypedTables mistypedActors :=
  ⟨_, _, rfl, rfl, .inr ⟨_, List.mem_cons_self, rfl⟩⟩

/-- In a scene: a script that is mistyped in a body, tables that are mistyped, and tables that
are no object, which is reported. -/
theorem compileValues_reports_in_town :
    outcome (Compilation.compileValues mistypedBody (.object [])) { scene := .str "town" } =
      .error .wrongType ∧
    outcome (Compilation.compileValues (.list []) mistypedActors) { scene := .str "town" } =
      .error .wrongType ∧
    ∃ fault lines,
      outcome (Compilation.compileValues (.list []) (.int 5)) { scene := .str "town" } =
        .error fault ∧ fault.IsReported ∧ fault.report false = .ok lines := by
  refine ⟨?_, ?_, ?_⟩
  · exact (Compilation.compileValues_reports (.inr ⟨_, rfl⟩) _ _).2.1 (.inl mistypedScript_body)
  · have hscript : IsScript (.list []) := .list fun _ hmem => absurd hmem List.not_mem_nil
    exact (Compilation.compileValues_reports (.inr ⟨_, rfl⟩) _ _).2.1
      (.inr ⟨hscript, mistypedTables_actors⟩)
  · have hrun : outcome (Compilation.compileValues (.list []) (.int 5)) { scene := .str "town" } =
        .error (.malformed .tablesNotObject) := rfl
    obtain ⟨lines, hlines⟩ :=
      ((Compilation.compileValues_reports (.inr ⟨_, rfl⟩) _ _).2.2 _ hrun).mpr
      ⟨.malformed, fun _ h => (by cases h)⟩
    exact ⟨_, lines, hrun, .malformed, hlines⟩

/-! ## Faults that are not reported -/

/-- A script with one event, for the camera. -/
def cameraScript (speed : Int) : Value :=
  .list [.object [(.str "command", .str "EVENT_CAMERA_LOCK"),
    (.str "args", .object [(.str "speed", .int speed)])]]

/-- The error about a camera that is locked on at a speed. -/
def cameraError (speed : Nat) : CompileError :=
  .outputFailed (.str "EVENT_CAMERA_LOCK") (.object [(.str "speed", .int speed)]) (.nat 1)
    (.nat (Operand.speedByte speed))

theorem Scope.cameraSpeed_of_le {speed : Nat} (hpositive : 0 < speed)
    (hlimit : speed ≤ Operand.shiftLimit) :
    cameraSpeed [(.str "speed", .int speed)] = .ok (.nat (Operand.speedByte speed)) := by
  have hgiven : (Value.int speed).truthy = true := bne_iff_ne.mpr (by omega)
  have harg : Fields.arg [(.str "speed", .int speed)] "speed" (.int 0) = .int speed := if_pos hgiven
  have hsmall : (speed : Int) ≤ Operand.shiftLimit := Int.ofNat_le.mpr hlimit
  rw [cameraSpeed, harg]
  unfold Operand.cameraSpeed
  simp only [Value.integer?, Scalar.integer?, if_neg (Int.not_lt.mpr (Int.natCast_nonneg speed)),
    if_pos hsmall, Int.toNat_natCast]

/-- A speed beyond 8, for which there is a power of two, is refused with its speed byte. -/
theorem Scope.generate_camera_refused (scope : Scope) {speed : Nat} (hfast : 8 < speed)
    (hlimit : speed ≤ Operand.shiftLimit) :
    ∃ state, scope.generate [.plain .cameraLock [(.str "speed", .int speed)]] {} =
      .error (.compile (cameraError speed)) state := by
  have hemit : scope.emit .cameraLock [(.str "speed", .int speed)] =
      .ok (.single .cameraLock [.nat (Operand.speedByte speed)]) := by
    show (emitCamera .cameraLock [(.str "speed", .int speed)] [] >>= Recipe.emission) = _
    rw [emitCamera, cameraSpeed_of_le (by omega) hlimit]
    rfl
  have hevent := (@generateEvent_leaf_ok scope
    (.plain .cameraLock [(.str "speed", .int speed)]) rfl {} _).mpr ⟨_, hemit, rfl⟩
  have hbad : Output.acceptable (.nat (Operand.speedByte speed)) = false := by
    rw [Output.acceptable, Bool.or_eq_false_iff]
    refine ⟨rfl, Bool.eq_false_iff.mpr fun hbyte => ?_⟩
    rw [Value.byte?_nat_isSome, Operand.speedByte_le_iff] at hbyte
    omega
  -- the state in which the event is scanned
  let scanned := ({} : Generator).add
    (Emission.slots (.single .cameraLock [.nat (Operand.speedByte speed)])) []
  have hstray : scanned.output.stray? = some (1, .nat (Operand.speedByte speed)) := by
    refine Output.stray?_eq_some_iff.mpr ⟨rfl, hbad, fun k slot hk hslot => ?_⟩
    obtain rfl : k = 0 := by omega
    cases hslot
    rfl
  have hevents : scope.generateEvents [.plain .cameraLock [(.str "speed", .int speed)]] {} =
      .error (.compile (cameraError speed)) scanned := by
    rw [generateEvents_cons]
    refine bind_error.mpr (.inr ⟨(), scanned, hevent, ?_⟩)
    exact bind_error.mpr (.inl (Generation.check_error.mpr ⟨1, _, hstray, rfl, rfl⟩))
  refine ⟨scanned, ?_⟩
  rw [generate_eq]
  exact bind_error.mpr (.inl (generateBlock_error.mpr hevents))

theorem CompileError.value_mem_details (command args position value : Value) :
    (.str "value", value) ∈ (outputFailed command args position value).details := by
  simp [details]

/-- The speed byte for a speed of twenty thousand has more digits than can be written. -/
theorem not_short_cameraError : ¬ (cameraError 20000).Short := by
  rintro ⟨-, hdetails⟩
  obtain ⟨-, hvalue⟩ := hdetails _ (CompileError.value_mem_details _ _ _ _)
  have hlarge : Nat.pow 10 digitLimit ≤ Operand.speedByte 20000 := by decide +kernel
  exact absurd (fewDigits_iff.mp (Value.short_int.mp hvalue)) (Nat.not_lt.mpr hlarge)

/-- A number for the arguments of an event, and a camera that is too fast, are not reported.  A
camera that is not quite so fast is refused with an error that is one of those reported, but not
in this case. -/
theorem compileValues_unreported :
    outcome (Compilation.compileValues
      (.list [.object [(.str "command", .str "EVENT_STOP"), (.str "args", .int 5)]])
      (.object [])) {} = .error .wrongType ∧
      Fault.report false .wrongType = .error .wrongType ∧
    outcome (Compilation.compileValues (cameraScript 100000000000000000000) (.object [])) {} =
      .error .overflow ∧
      Fault.report false .overflow = .error .overflow ∧
    outcome (Compilation.compileValues (cameraScript 20000) (.object [])) {} =
      .error (.compile (cameraError 20000)) ∧
      Fault.report false (.compile (cameraError 20000)) =
        .error (.malformed (.tooManyDigits .toWrite)) := by
  refine ⟨rfl, rfl, rfl, rfl, ?_, ?_⟩
  · have hrun := ({} : Session).outcome_run (.values (cameraScript 20000) (.object []))
    rw [Job.alone_of_read rfl rfl sceneTold_null rfl] at hrun
    obtain ⟨state, hgenerate⟩ := @Scope.generate_camera_refused ⟨{}, []⟩ 20000 (by decide)
      (by decide)
    exact hrun.trans (outcome_error hgenerate)
  · have huntold := (cameraError 20000).told_message.error_iff.mpr ⟨rfl, not_short_cameraError⟩
    rw [Fault.report, huntold]
    rfl

end SceneScript
