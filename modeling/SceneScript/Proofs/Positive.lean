import SceneScript.Proofs.Extension
import SceneScript.Proofs.Failure

/-!
# Tests for a clear flag

A test for a clear flag is a test for a set one with its bodies exchanged, and a script in which
all tests were written so, at every depth, is its positive form.  Compiling the positive form
ends as compiling the script does: with the same program or a fault of the same sort, the same
warnings in the same order, the same output in the generator and the same transcript in the
session.  Only the name by which a scan reports a test shows how the test was written.

So the statement is an equation of whole runs, from every state: the run of the positive form is
the run of the script with that one name replaced.  Runs that are equal up to the name compose,
`Mirrors.bind`, and the equation follows the generator step by step.  A fault of any other step
than a scan names no test.
-/

namespace SceneScript

/-! ## Positive forms -/

/-- The kind of an event in positive form. -/
def EventKind.positive : EventKind → EventKind
  | .ifFalse => .ifTrue
  | kind => kind

mutual
/-- An event in which every test for a clear flag is a test for a set one, with its bodies
exchanged. -/
def Event.positive : Event → Event
  | .conditional .ifFalse args whenTrue whenFalse =>
    .conditional .ifTrue args (positiveAll whenFalse) (positiveAll whenTrue)
  | .conditional kind args whenTrue whenFalse =>
    .conditional kind args (positiveAll whenTrue) (positiveAll whenFalse)
  | .plain kind args => .plain kind.positive args

/-- A script with all its events in positive form. -/
def Event.positiveAll : List Event → List Event
  | [] => []
  | event :: rest => positive event :: positiveAll rest
end

/-- A reported command, with that of a test for a clear flag replaced. -/
def Value.positive : Value → Value
  | .str command => .str (if command = "EVENT_IF_FALSE" then "EVENT_IF_TRUE" else command)
  | command => command

/-- A fault with the command that it reports in positive form; nothing else about it changes. -/
def Fault.positive : Fault → Fault
  | .compile (.outputFailed command args position value) =>
    .compile (.outputFailed command.positive args position value)
  | fault => fault

/-- The end of a run with its fault in positive form. -/
def positiveEnd {σ α : Type} : EStateM.Result Fault σ α → EStateM.Result Fault σ α
  | .ok a s => .ok a s
  | .error fault s => .error fault.positive s

namespace Event

theorem kind_positive (event : Event) : event.positive.kind = event.kind.positive := by
  cases event with
  | plain kind args => rfl
  | conditional kind args whenTrue whenFalse => cases kind <;> rfl

theorem args_positive (event : Event) : event.positive.args = event.args := by
  cases event with
  | plain kind args => rfl
  | conditional kind args whenTrue whenFalse => cases kind <;> rfl

/-- The positive form of a test goes to the same bodies for the same flag, but for the tests in
them. -/
theorem branches?_positive (event : Event) :
    event.positive.branches? =
      event.branches?.map fun bodies => (positiveAll bodies.1, positiveAll bodies.2) := by
  cases event with
  | plain kind args => cases kind <;> rfl
  | conditional kind args whenTrue whenFalse => cases kind <;> rfl

theorem kind_positive_leaf {event : Event} (h : event.branches? = none) :
    event.positive.kind = event.kind := by
  have hkind := event.isConditional_kind
  rw [h] at hkind
  rw [kind_positive]
  cases hcase : event.kind
  case ifFalse =>
    rw [hcase] at hkind
    cases hkind
  all_goals rfl

end Event

theorem EventKind.positive_command (kind : EventKind) :
    (Value.str kind.command).positive = .str kind.positive.command := by
  cases kind <;> rfl

/-- A positive form has as many events as the script.  This one goes into the bodies of all
events, also those that are never laid out. -/
theorem Event.countAll_positiveAll (script : Script) :
    countAll (positiveAll script) = countAll script := by
  refine @Event.rec_1 (fun event => count event.positive = count event)
    (fun script => countAll (positiveAll script) = countAll script) ?plain ?conditional
      ?nil ?cons script
  case plain =>
    intro kind args
    rfl
  case conditional =>
    intro kind args whenTrue whenFalse hwhenTrue hwhenFalse
    cases kind
    case ifFalse =>
      rw [positive, count, count, hwhenTrue, hwhenFalse, Nat.add_comm (countAll whenFalse)]
    all_goals rw [positive, count, count, hwhenTrue, hwhenFalse]
    all_goals exact EventKind.noConfusion
  case nil => rfl
  case cons =>
    intro event rest hevent hrest
    rw [positiveAll, countAll, countAll, hevent, hrest]

example : Event.positiveAll nestedScript =
    [.whenSet (.str "door") [.whenSet (.str "lamp") [] [.plain .stop []]]
      [.plain .setTrue [(.str "flag", .str "lamp")]]] := rfl

/-! ## Runs that mirror each other -/

/-- The fault reports no test for a clear flag. -/
def Fault.NamesNone (fault : Fault) : Prop := fault.positive = fault

theorem Fault.namesNone_of_not_outputFailed {fault : Fault} (h : ¬ fault.IsOutputFailed) :
    fault.NamesNone := by
  unfold Fault.NamesNone Fault.positive
  split
  · rename_i position value
    exact absurd ⟨_, _, position, value, rfl⟩ h
  · rfl

/-- Wherever they start, the second run ends as the first does, with the fault in positive form. -/
def Mirrors {σ α : Type} (x y : EStateM Fault σ α) : Prop := ∀ s, y s = positiveEnd (x s)

theorem Mirrors.bind {σ α β : Type} {x y : EStateM Fault σ α} {f g : α → EStateM Fault σ β}
    (hx : Mirrors x y) (hf : ∀ a, Mirrors (f a) (g a)) : Mirrors (x >>= f) (y >>= g) := by
  intro s
  show EStateM.bind y g s = positiveEnd (EStateM.bind x f s)
  rw [EStateM.bind, EStateM.bind, hx s]
  cases x s with
  | ok a t => exact hf a t
  | error fault t => rfl

/-- A step whose faults report no test mirrors itself. -/
theorem mirrors_self {σ α : Type} {x : EStateM Fault σ α}
    (h : ∀ s fault t, x s = .error fault t → fault.NamesNone) : Mirrors x x := by
  intro s
  cases hrun : x s with
  | ok a t => rfl
  | error fault t => rw [positiveEnd, h s fault t hrun]

/-- So does a step that cannot fail. -/
theorem mirrors_total {σ α : Type} {x : EStateM Fault σ α} (h : ∀ s, ∃ a t, x s = .ok a t) :
    Mirrors x x := by
  refine mirrors_self ?_
  intro s fault t herror
  obtain ⟨a, u, hok⟩ := h s
  rw [hok] at herror
  cases herror

/-! The faults of patching and freezing report no event at all. -/

namespace Output

theorem mirrors_overwrite (position : Int) (value : Value) :
    Mirrors (overwrite position value) (overwrite position value) := by
  intro out
  rw [overwrite, get_bind]
  cases Indexing.place? out.size position with
  | some place => rfl
  | none => rfl

theorem mirrors_patch (place n : Nat) :
    Mirrors (patch (.nat place) (.nat n)) (patch (.nat place) (.nat n)) := by
  by_cases h : 0xffff < n
  · intro out
    rw [patch_refused h]
    rfl
  · have hrange : addressOutOfRange (.nat n) = .ok false := by
      rw [addressOutOfRange_nat, decide_eq_false h]
    have hpatch : patch (.nat place) (.nat n) =
        overwrite place (.int (n / 256)) >>= fun _ => overwrite (place + 1) (.int (n % 256)) := by
      unfold patch
      rw [hrange]
      rfl
    rw [hpatch]
    exact (mirrors_overwrite _ _).bind fun _ => mirrors_overwrite _ _

theorem freeze_names_none {out : Output} {fault : Fault} (h : out.freeze = .error fault) :
    fault.NamesNone := by
  unfold freeze at h
  split at h
  · cases h
    rfl
  · rcases result_bind_error.mp h with hcheck | ⟨_, -, hreturn⟩
    · unfold check at hcheck
      split at hcheck
      · cases hcheck
      · cases hcheck
        rfl
    · cases hreturn

end Output

/-! ## The steps of generation -/

namespace Generation

theorem mirrors_orFail {α : Type} {r : Except Fault α}
    (h : ∀ fault, r = .error fault → fault.NamesNone) :
    Mirrors (orFail r) (orFail r) := by
  refine mirrors_self ?_
  intro s fault t herror
  obtain ⟨hr, -⟩ := orFail_error.mp herror
  exact h fault hr

theorem mirrors_extend (values : List Value) : Mirrors (extend values) (extend values) :=
  mirrors_total fun _ => ⟨_, _, rfl⟩

theorem mirrors_reserve : Mirrors reserve reserve := mirrors_total fun _ => ⟨_, _, rfl⟩

theorem mirrors_place (emission : Emission) : Mirrors (place emission) (place emission) :=
  mirrors_total fun s => ⟨_, _, place_run emission s⟩

/-- An address is refused in no one's name. -/
theorem mirrors_patchHere (place : Nat) : Mirrors (patchHere place) (patchHere place) := by
  intro s
  have hpatch := Output.mirrors_patch place s.output.size s.output
  unfold patchHere
  cases hrun : Output.patch (.nat place) (.nat s.output.size) s.output with
  | ok _ output => rfl
  | error fault output =>
      rw [hrun] at hpatch
      injection hpatch with hfault
      dsimp only [positiveEnd]
      rw [← hfault]

/-- The scan is the one step that may report a test. -/
theorem mirrors_check (kind : EventKind) (args : Value) :
    Mirrors (check (.str kind.command) args) (check (.str kind.positive.command) args) := by
  intro s
  rw [check, check, get_bind, get_bind, Output.check, Output.check]
  cases s.output.stray? with
  | none => rfl
  | some found =>
      show EStateM.Result.error _ s = .error _ s
      rw [← kind.positive_command]
      rfl

theorem mirrors_freeze : Mirrors freeze freeze := by
  intro s
  rw [freeze, get_bind]
  cases hfreeze : s.output.freeze with
  | ok program => rfl
  | error fault =>
      show EStateM.Result.error fault s = .error fault.positive s
      rw [Output.freeze_names_none hfreeze]

/-- A conditional mirrors one whose bodies mirror its own. -/
theorem mirrors_conditional {scope : Scope} {args : Fields}
    {whenSet whenClear whenSet' whenClear' : Generation Unit} (hset : Mirrors whenSet whenSet')
    (hclear : Mirrors whenClear whenClear') :
    Mirrors (conditional scope args whenSet whenClear)
      (conditional scope args whenSet' whenClear') := by
  refine (mirrors_orFail ?_).bind fun index => ?_
  · intro fault hflag
    obtain ⟨-, rfl⟩ := Scope.flagIndex_error hflag
    rfl
  refine (mirrors_extend _).bind fun _ => ?_
  refine mirrors_reserve.bind fun setAddress => ?_
  refine hclear.bind fun _ => ?_
  refine (mirrors_extend _).bind fun _ => ?_
  refine mirrors_reserve.bind fun endAddress => ?_
  refine (mirrors_patchHere _).bind fun _ => ?_
  exact hset.bind fun _ => mirrors_patchHere _

end Generation

namespace Scope

open Generation

variable {scope : Scope}

theorem mirrors_leaf {event : Event} (hleaf : event.branches? = none) :
    Mirrors (scope.generateEvent event) (scope.generateEvent event.positive) := by
  have hleaf' : event.positive.branches? = none := by
    rw [Event.branches?_positive, hleaf]
    rfl
  rw [generateEvent_leaf hleaf, generateEvent_leaf hleaf', Event.kind_positive_leaf hleaf,
    Event.args_positive]
  refine (mirrors_orFail ?_).bind mirrors_place
  intro fault hemit
  exact Fault.namesNone_of_not_outputFailed (refuses_of_emit hemit).not_outputFailed

theorem mirrors_test {event : Event} {whenSet whenClear : Script}
    (htest : event.branches? = some (whenSet, whenClear))
    (hset : Mirrors (scope.generateEvents whenSet)
      (scope.generateEvents (Event.positiveAll whenSet)))
    (hclear : Mirrors (scope.generateEvents whenClear)
      (scope.generateEvents (Event.positiveAll whenClear))) :
    Mirrors (scope.generateEvent event) (scope.generateEvent event.positive) := by
  have htest' : event.positive.branches? =
      some (Event.positiveAll whenSet, Event.positiveAll whenClear) := by
    rw [Event.branches?_positive, htest]
    rfl
  rw [generateEvent_test htest, generateEvent_test htest', Event.args_positive]
  exact mirrors_conditional hset hclear

theorem mirrors_cons {event : Event} {rest : Script}
    (hevent : Mirrors (scope.generateEvent event) (scope.generateEvent event.positive))
    (hrest : Mirrors (scope.generateEvents rest) (scope.generateEvents (Event.positiveAll rest))) :
    Mirrors (scope.generateEvents (event :: rest))
      (scope.generateEvents (Event.positiveAll (event :: rest))) := by
  rw [Event.positiveAll, generateEvents_cons, generateEvents_cons, Event.kind_positive,
    Event.args_positive]
  exact hevent.bind fun _ => (mirrors_check _ _).bind fun _ => hrest

/-- Laying out the positive form mirrors laying out the script. -/
theorem mirrors_events (script : Script) :
    Mirrors (scope.generateEvents script) (scope.generateEvents (Event.positiveAll script)) := by
  induction script using Script.induction with
  | nil =>
      rw [Event.positiveAll, generateEvents_nil]
      exact mirrors_total fun s => ⟨(), s, rfl⟩
  | leaf event rest hleaf ih => exact mirrors_cons (mirrors_leaf hleaf) ih
  | test event rest whenSet whenClear htest ihSet ihClear ih =>
      exact mirrors_cons (mirrors_test htest ihSet ihClear) ih

theorem mirrors_generate (script : Script) :
    Mirrors (scope.generate script) (scope.generate (Event.positiveAll script)) := by
  rw [generate_eq, generate_eq, generateBlock_eq, generateBlock_eq]
  refine ((mirrors_events script).bind fun _ => ?_).bind fun _ => mirrors_freeze
  exact mirrors_extend _

end Scope

/-! ## Compilations -/

namespace Compilation

theorem mirrors_of_comesTo {α : Type} {x : Compilation α} {a : α} {warnings : List String}
    (h : ∀ scene, ComesTo x scene (.ok a) warnings) : Mirrors x x := by
  refine mirrors_total ?_
  intro session
  obtain ⟨text, -, hrun⟩ := h session.scene session rfl
  exact ⟨a, _, hrun⟩

theorem mirrors_log (message : String) : Mirrors (log message) (log message) :=
  mirrors_of_comesTo fun _ => comesTo_log message

theorem mirrors_ofResult {α : Type} {result : Except Fault α}
    (h : ∀ fault, result = .error fault → fault.NamesNone) :
    Mirrors (ofResult result) (ofResult result) := by
  intro session
  cases hresult : result with
  | ok a => rfl
  | error fault =>
      show EStateM.Result.error fault session = .error fault.positive session
      rw [h fault hresult]

/-- What cannot be told does not name a test. -/
theorem mirrors_limited {α : Type} (result : Except TooManyDigits α) :
    Mirrors (ofResult (Fault.limited result)) (ofResult (Fault.limited result)) := by
  refine mirrors_ofResult ?_
  intro fault hfault
  cases result with
  | ok a => cases hfault
  | error e =>
      cases hfault
      rfl

theorem mirrors_ofScene (symbols : Symbols) (scene : Value) :
    Mirrors (ofResult (Scope.ofScene symbols scene)) (ofResult (Scope.ofScene symbols scene)) := by
  have hscene : ∀ fault, symbols.sceneActors scene = .error fault → fault.NamesNone := by
    intro fault hfault
    unfold Symbols.sceneActors at hfault
    split at hfault
    · cases hfault
    · split at hfault
      · cases hfault
      · cases hfault
        rfl
  refine mirrors_ofResult ?_
  intro fault hfault
  rcases result_bind_error.mp hfault with hactors | ⟨_, -, hreturn⟩
  · exact hscene fault hactors
  · cases hreturn

/-- The session is warned of the same in both runs. -/
theorem mirrors_generate (scope : Scope) (script : Script) :
    Mirrors (generate scope script) (generate scope (Event.positiveAll script)) := by
  intro session
  rw [generate_run, generate_run, @Scope.mirrors_generate scope script {}]
  cases scope.generate script {} with
  | ok program state => rfl
  | error fault state => rfl

theorem mirrors_compileScript (script : Script) (symbols : Symbols) :
    Mirrors (compileScript script symbols) (compileScript (Event.positiveAll script) symbols) := by
  unfold compileScript
  refine (mirrors_total fun session => ⟨session, session, rfl⟩).bind fun session => ?_
  have hmessage : startMessage session.scene (Event.positiveAll script) =
      startMessage session.scene script := by
    rw [startMessage, startMessage, Event.countAll_positiveAll]
  dsimp only
  rw [hmessage]
  refine (mirrors_limited _).bind fun message => (mirrors_log message).bind fun _ => ?_
  refine (mirrors_ofScene symbols session.scene).bind fun scope => ?_
  refine (mirrors_generate scope script).bind fun program => ?_
  exact (mirrors_log _).bind fun _ => mirrors_total fun session => ⟨program, session, rfl⟩

/-- **A test for a clear flag is a test for a set one with its bodies exchanged.**  Generating
the positive form of a script, from any state, ends as generating the script does, with the same
output and the same warnings; and so does compiling it, in any session and against any tables.
If it fails, it fails with the same fault, but that a test for a clear flag is reported as one
for a set flag. -/
theorem compileScript_positiveAll (script : Script) :
    (∀ scope s, Scope.generate scope (Event.positiveAll script) s =
      positiveEnd (scope.generate script s)) ∧
    ∀ symbols session, compileScript (Event.positiveAll script) symbols session =
      positiveEnd (compileScript script symbols session) := by
  constructor
  · intro scope s
    exact Scope.mirrors_generate script s
  · intro symbols session
    exact mirrors_compileScript script symbols session

end Compilation

end SceneScript
