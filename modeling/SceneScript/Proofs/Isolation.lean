import SceneScript.Proofs.Attachment
import SceneScript.Proofs.Generation
import SceneScript.Proofs.Reading

/-!
# Compilations of a session do not touch each other

A session lives through many requests: compilations that succeed or fail, changes of the scene
and of the verbosity, warnings and progress reports of its user.  What a compilation comes to
depends on none of this but on the scene: it gives the program or the fault that a generator of
its own would have given, and what it leaves behind is the warnings of that generator, after
those that were there.  How verbose the session is shows in the transcript and nowhere else, and
a session that is not verbose adds nothing to it.

The session writes its warnings while the generator runs, and that the two lists agree at the
end is `Session.lockstep_layOut`.

The steps of a session are all of one sort, `Compilation.ComesTo`: for a given scene they have
one result and one list of warnings, and only the text they tell depends on the rest of the
state.  One lemma for each way to build a step, and the whole follows.

A compilation begins by telling its scene.  The scene is a text or null as a rule; one that
holds an integer of too many digits cannot be told, and then no generator is made.
-/

namespace SceneScript

/-! ## Telling the scene -/

theorem Fault.limited_ok {α : Type} {result : Except TooManyDigits α} {a : α} :
    Fault.limited result = .ok a ↔ result = .ok a := by
  cases result with
  | ok b => simp [Fault.limited]
  | error e => simp [Fault.limited]

/-- The scene can be told at the start of a compilation: it does not count as given, or no
integer in it has too many digits. -/
def SceneTold (scene : Value) : Prop := scene.truthy = true → scene.Short

theorem told_startMessage (scene : Value) (script : Script) :
    Told (SceneTold scene) (Compilation.startMessage scene script) := by
  have hscene : Told (SceneTold scene) (Compilation.sceneText scene) := by
    unfold Compilation.sceneText
    split
    · rename_i h
      exact scene.told_display.map.congr ⟨fun hshort _ => hshort, fun htold => htold h⟩
    · exact .ok fun htruthy => absurd htruthy ‹_›
  exact hscene.map

theorem sceneTold_null : SceneTold .null := fun _ => Value.short_null

theorem sceneTold_str (scene : String) : SceneTold (.str scene) := fun _ => Value.short_str scene

/-! ## Requests -/

/-- Something to compile: values, or a script that has been read already with its tables. -/
inductive Job where
  | values (script tables : Value)
  | events (script : Script) (symbols : Symbols)

/-- What is done with a session. -/
inductive Request where
  | compile (job : Job)
  | setScene (scene : Value)
  | setVerbose (verbose : Bool)
  | warn (code message : String)
  | log (message : String)

namespace Job

/-- The compilation of a job. -/
def run : Job → Compilation Program
  | .values script tables => Compilation.compileValues script tables
  | .events script symbols => Compilation.compileScript script symbols

/-- The script and the tables of a job. -/
def read : Job → Except Fault (Script × Symbols)
  | .values script tables => do
    let script ← readScript script
    let symbols ← Symbols.ofValue tables
    return (script, symbols)
  | .events script symbols => .ok (script, symbols)

/-- The scope of a job in a scene, and its script; the scene is told first. -/
def prepare (job : Job) (scene : Value) : Except Fault (Scope × Script) := do
  let (script, symbols) ← job.read
  let _ ← Fault.limited (Compilation.startMessage scene script)
  let scope ← Scope.ofScene symbols scene
  return (scope, script)

/-- The program or the fault that a generator of its own gives for a job. -/
def alone (job : Job) (scene : Value) : Except Fault Program :=
  match job.prepare scene with
  | .error fault => .error fault
  | .ok (scope, script) => outcome (scope.generate script) {}

/-- The warnings that a generator of its own records for a job; if there is nothing to generate
from, none. -/
def warnings (job : Job) (scene : Value) : List Warning :=
  match job.prepare scene with
  | .error _ => []
  | .ok (scope, script) => (stateAfter (scope.generate script) {}).warnings

theorem prepare_values {script tables scene : Value} {events : Script} {symbols : Symbols}
    (hscript : readScript script = .ok events) (htables : Symbols.ofValue tables = .ok symbols) :
    (values script tables).prepare scene = (Job.events events symbols).prepare scene := by
  rw [prepare, read, hscript, htables]
  rfl

theorem prepare_events (script : Script) (symbols : Symbols) (scene : Value) :
    (Job.events script symbols).prepare scene = (do
      let _ ← Fault.limited (Compilation.startMessage scene script)
      let scope ← Scope.ofScene symbols scene
      return (scope, script)) := rfl

theorem prepare_ok {job : Job} {scene : Value} {scope : Scope} {script : Script} :
    job.prepare scene = .ok (scope, script) ↔
      SceneTold scene ∧
        ∃ symbols, job.read = .ok (script, symbols) ∧ Scope.ofScene symbols scene = .ok scope := by
  constructor
  · intro h
    obtain ⟨⟨events, symbols⟩, hread, h⟩ := result_bind_ok.mp h
    obtain ⟨message, hmessage, h⟩ := result_bind_ok.mp h
    obtain ⟨found, hscope, h⟩ := result_bind_ok.mp h
    cases h
    exact ⟨(told_startMessage scene script).ok_iff.mp ⟨message, Fault.limited_ok.mp hmessage⟩,
      symbols, hread, hscope⟩
  · rintro ⟨htold, symbols, hread, hscope⟩
    obtain ⟨message, hmessage⟩ := (told_startMessage scene script).ok_iff.mpr htold
    refine result_bind_ok.mpr ⟨(script, symbols), hread, ?_⟩
    exact result_bind_ok.mpr ⟨message, Fault.limited_ok.mpr hmessage,
      result_bind_ok.mpr ⟨scope, hscope, rfl⟩⟩

theorem prepare_untold {job : Job} {scene : Value} (h : ¬ SceneTold scene) :
    ∃ fault, job.prepare scene = .error fault := by
  cases hprepare : job.prepare scene with
  | error fault => exact ⟨fault, rfl⟩
  | ok prepared => exact absurd (prepare_ok.mp hprepare).1 h

theorem alone_told {job : Job} {scene : Value} {program : Program}
    (h : job.alone scene = .ok program) : SceneTold scene := by
  apply Classical.byContradiction
  intro huntold
  obtain ⟨fault, hprepare⟩ := @prepare_untold job scene huntold
  rw [alone, hprepare] at h
  cases h

/-- A job that gives a program has been read, and its script was generated in the scope of the
scene. -/
theorem alone_ok {job : Job} {scene : Value} {program : Program}
    (h : job.alone scene = .ok program) :
    ∃ script symbols scope state, job.read = .ok (script, symbols) ∧
      Scope.ofScene symbols scene = .ok scope ∧ scope.generate script {} = .ok program state := by
  rw [alone] at h
  cases hprepare : job.prepare scene with
  | error fault =>
      rw [hprepare] at h
      cases h
  | ok prepared =>
      obtain ⟨scope, script⟩ := prepared
      obtain ⟨-, symbols, hread, hscope⟩ := prepare_ok.mp hprepare
      rw [hprepare] at h
      dsimp only [outcome] at h
      cases hrun : scope.generate script {} with
      | error fault state =>
          rw [hrun] at h
          cases h
      | ok found state =>
          rw [hrun] at h
          cases h
          exact ⟨script, symbols, scope, state, hread, hscope, hrun⟩

end Job

namespace Session

/-- The session after a request. -/
def step (session : Session) : Request → Session
  | .compile job => stateAfter job.run session
  | .setScene scene => { session with scene := scene }
  | .setVerbose verbose => { session with verbose := verbose }
  | .warn code message => stateAfter (Compilation.warn code message) session
  | .log message => stateAfter (Compilation.log message) session

/-- The session after requests that were made one after the other. -/
def after (session : Session) (requests : List Request) : Session := requests.foldl step session

/-- What the compilations among the requests give back, in order. -/
def answers (session : Session) : List Request → List (Except Fault Program)
  | [] => []
  | .compile job :: rest => outcome job.run session :: (session.step (.compile job)).answers rest
  | request :: rest => (session.step request).answers rest

/-- The session with warnings and text added. -/
def add (session : Session) (warnings : List String) (text : String) : Session :=
  { session with
    warnings := session.warnings ++ warnings
    transcript := session.transcript ++ text }

@[simp] theorem add_add (session : Session) (warnings others : List String) (text more : String) :
    (session.add warnings text).add others more =
      session.add (warnings ++ others) (text ++ more) := by
  simp only [add, List.append_assoc, String.append_assoc]

theorem add_nil (session : Session) : session.add [] "" = session := by
  simp only [add, List.append_nil, String.append_empty]

theorem tell_eq (session : Session) (line : String) :
    ∃ text, (session.verbose = false → text = "") ∧ session.tell line = session.add [] text := by
  cases hverbose : session.verbose with
  | false => exact ⟨"", fun _ => rfl, by rw [tell, hverbose, session.add_nil]; rfl⟩
  | true =>
      refine ⟨line ++ "\n", fun h => (by cases h), ?_⟩
      rw [tell, if_pos hverbose, add, List.append_nil, String.append_assoc]

theorem warn_eq (session : Session) (code message : String) :
    ∃ text, (session.verbose = false → text = "") ∧
      session.warn code message = session.add [code ++ ": " ++ message] text := by
  obtain ⟨text, hquiet, htold⟩ :=
    (session.add [code ++ ": " ++ message] "").tell_eq
      ("[scriptc] Warning: " ++ (code ++ ": " ++ message))
  refine ⟨text, hquiet, ?_⟩
  rw [add_add, List.append_nil, String.empty_append] at htold
  rw [← htold, add, String.append_empty]
  rfl

theorem warnAll_eq (session : Session) (warnings : List Warning) :
    ∃ text, (session.verbose = false → text = "") ∧
      session.warnAll warnings = session.add (warnings.map Warning.text) text := by
  induction warnings generalizing session with
  | nil => exact ⟨"", fun _ => rfl, session.add_nil.symm⟩
  | cons w rest ih =>
      obtain ⟨text, hquiet, hwarned⟩ := session.warn_eq w.code w.message
      obtain ⟨more, hquiet', hrest⟩ := ih (session.warn w.code w.message)
      rw [hwarned] at hquiet' hrest
      refine ⟨text ++ more, ?_, ?_⟩
      · intro hverbose
        rw [hquiet hverbose, hquiet' hverbose]
        rfl
      · show (session.warn w.code w.message).warnAll rest = _
        rw [hwarned, hrest, add_add]
        rfl

end Session

/-! ## What a step comes to -/

/-- The end of a step, put together from what it gives back and the state it leaves. -/
def settle {σ α : Type} (result : Except Fault α) (s : σ) : EStateM.Result Fault σ α :=
  match result with
  | .ok a => .ok a s
  | .error fault => .error fault s

theorem outcome_of_settle {σ α : Type} {x : EStateM Fault σ α} {s t : σ} {result : Except Fault α}
    (h : x s = settle result t) : outcome x s = result ∧ stateAfter x s = t := by
  cases result with
  | ok a => exact ⟨by rw [outcome, h]; rfl, stateAfter_ok h⟩
  | error fault => exact ⟨by rw [outcome, h]; rfl, stateAfter_error h⟩

namespace Compilation

/-- In every session for the scene, the step gives back the result and adds the warnings.  What
it tells may depend on the session; one that is not verbose is told nothing. -/
def ComesTo {α : Type} (x : Compilation α) (scene : Value) (result : Except Fault α)
    (warnings : List String) : Prop :=
  ∀ session : Session, session.scene = scene →
    ∃ text, (session.verbose = false → text = "") ∧
      x session = settle result (session.add warnings text)

variable {scene : Value}

theorem comesTo_pure {α : Type} (a : α) : ComesTo (pure a) scene (.ok a) [] := by
  intro session _
  exact ⟨"", fun _ => rfl, by rw [session.add_nil]; rfl⟩

theorem comesTo_throw {α : Type} (fault : Fault) :
    ComesTo (throw fault : Compilation α) scene (.error fault) [] := by
  intro session _
  exact ⟨"", fun _ => rfl, by rw [session.add_nil]; rfl⟩

theorem comesTo_ofResult {α : Type} (result : Except Fault α) :
    ComesTo (ofResult result) scene result [] := by
  cases result with
  | ok a => exact comesTo_pure a
  | error fault => exact comesTo_throw fault

/-- A step that may look at the session comes to what it comes to for every session that it may
see. -/
theorem comesTo_get {α : Type} {f : Session → Compilation α} {result : Except Fault α}
    {warnings : List String}
    (h : ∀ session, session.scene = scene → ComesTo (f session) scene result warnings) :
    ComesTo (get >>= f) scene result warnings := by
  intro session hscene
  rw [get_bind]
  exact h session hscene session hscene

theorem ComesTo.bind {α β : Type} {x : Compilation α} {f : α → Compilation β} {a : α}
    {result : Except Fault β} {warnings others : List String}
    (hx : ComesTo x scene (.ok a) warnings) (hf : ComesTo (f a) scene result others) :
    ComesTo (x >>= f) scene result (warnings ++ others) := by
  intro session hscene
  obtain ⟨text, hquiet, hrun⟩ := hx session hscene
  obtain ⟨more, hquiet', hrun'⟩ := hf (session.add warnings text) hscene
  refine ⟨text ++ more, ?_, ?_⟩
  · intro hverbose
    rw [hquiet hverbose, hquiet' hverbose]
    rfl
  · rw [← Session.add_add, ← hrun']
    show EStateM.bind x f session = _
    rw [EStateM.bind, hrun]
    rfl

theorem ComesTo.bind_error {α β : Type} {x : Compilation α} {f : α → Compilation β} {fault : Fault}
    {warnings : List String} (hx : ComesTo x scene (.error fault) warnings) :
    ComesTo (x >>= f) scene (.error fault) warnings := by
  intro session hscene
  obtain ⟨text, hquiet, hrun⟩ := hx session hscene
  exact ⟨text, hquiet, SceneScript.bind_error.mpr (.inl hrun)⟩

/-- A step leaves the scene, adds its warnings and, in a session that is verbose, adds to the
transcript. -/
theorem ComesTo.state {α : Type} {x : Compilation α} {session : Session} {result : Except Fault α}
    {warnings : List String} (h : ComesTo x session.scene result warnings) :
    ∃ text, (session.verbose = false → text = "") ∧
      (stateAfter x session).scene = session.scene ∧
      (stateAfter x session).warnings = session.warnings ++ warnings ∧
      (stateAfter x session).transcript = session.transcript ++ text := by
  obtain ⟨text, hquiet, hrun⟩ := h session rfl
  refine ⟨text, hquiet, ?_⟩
  rw [(outcome_of_settle hrun).2]
  exact ⟨rfl, rfl, rfl⟩

/-! ## The steps of a session -/

theorem comesTo_log (message : String) : ComesTo (log message) scene (.ok ()) [] := by
  intro session _
  obtain ⟨text, hquiet, htold⟩ := session.tell_eq ("[scriptc] " ++ message)
  exact ⟨text, hquiet, congrArg (EStateM.Result.ok ()) htold⟩

theorem comesTo_warn (code message : String) :
    ComesTo (warn code message) scene (.ok ()) [code ++ ": " ++ message] := by
  intro session _
  obtain ⟨text, hquiet, hwarned⟩ := session.warn_eq code message
  exact ⟨text, hquiet, congrArg (EStateM.Result.ok ()) hwarned⟩

/-- Generation in a session gives what it gives from empty output, and the session has recorded
the warnings, also if it fails. -/
theorem comesTo_generate (scope : Scope) (script : Script) :
    ComesTo (generate scope script) scene (outcome (scope.generate script) {})
      ((stateAfter (scope.generate script) {}).warnings.map Warning.text) := by
  intro session _
  rw [generate_run]
  cases hrun : scope.generate script {} with
  | ok program state =>
      obtain ⟨text, hquiet, hwarned⟩ := session.warnAll_eq state.warnings
      rw [outcome, stateAfter, hrun]
      exact ⟨text, hquiet, congrArg (EStateM.Result.ok program) hwarned⟩
  | error fault state =>
      obtain ⟨text, hquiet, hwarned⟩ := session.warnAll_eq state.warnings
      rw [outcome, stateAfter, hrun]
      exact ⟨text, hquiet, congrArg (EStateM.Result.error fault) hwarned⟩

/-- Compiling a script comes to what a generator of its own gives for the scene. -/
theorem comesTo_compileScript (script : Script) (symbols : Symbols) :
    ComesTo (compileScript script symbols) scene ((Job.events script symbols).alone scene)
      (((Job.events script symbols).warnings scene).map Warning.text) := by
  apply comesTo_get
  intro session hscene
  rw [hscene, Job.alone, Job.warnings, Job.prepare_events]
  dsimp only
  cases Fault.limited (startMessage scene script) with
  | error fault => exact (comesTo_ofResult (.error fault)).bind_error
  | ok message =>
      refine (comesTo_ofResult (.ok message)).bind ((comesTo_log message).bind ?_)
      cases Scope.ofScene symbols scene with
      | error fault => exact (comesTo_ofResult (.error fault)).bind_error
      | ok scope =>
          refine (comesTo_ofResult (.ok scope)).bind ?_
          have hgenerate := @comesTo_generate scene scope script
          show ComesTo _ scene (outcome (scope.generate script) {}) _
          cases houtcome : outcome (scope.generate script) {} with
          | error fault =>
              rw [houtcome] at hgenerate
              exact hgenerate.bind_error
          | ok program =>
              rw [houtcome] at hgenerate
              rw [← List.append_nil (List.map _ _)]
              exact hgenerate.bind ((comesTo_log _).bind (comesTo_pure program))

/-- So does any job. -/
theorem comesTo_run (job : Job) :
    ComesTo job.run scene (job.alone scene) ((job.warnings scene).map Warning.text) := by
  cases job with
  | events script symbols => exact comesTo_compileScript script symbols
  | values script tables =>
      cases hscript : readScript script with
      | error fault =>
          have hprepare : (Job.values script tables).prepare scene = .error fault := by
            rw [Job.prepare, Job.read, hscript]
            rfl
          rw [Job.alone, Job.warnings, hprepare, Job.run, compileValues, hscript]
          exact (comesTo_ofResult (.error fault)).bind_error
      | ok events =>
          rw [Job.run, compileValues, hscript]
          refine (comesTo_ofResult (.ok events)).bind ?_
          cases htables : Symbols.ofValue tables with
          | error fault =>
              have hprepare : (Job.values script tables).prepare scene = .error fault := by
                rw [Job.prepare, Job.read, hscript, htables]
                rfl
              rw [Job.alone, Job.warnings, hprepare]
              exact (comesTo_ofResult (.error fault)).bind_error
          | ok symbols =>
              rw [Job.alone, Job.warnings, Job.prepare_values hscript htables]
              exact (comesTo_ofResult (.ok symbols)).bind (comesTo_compileScript events symbols)

end Compilation

/-! ## What a request changes -/

/-- The scene after a request. -/
def Request.sceneAfter (scene : Value) : Request → Value
  | .setScene other => other
  | _ => scene

/-- The warnings that a request adds in a session for a scene. -/
def Request.added (scene : Value) : Request → List String
  | .compile job => (job.warnings scene).map Warning.text
  | .warn code message => [code ++ ": " ++ message]
  | _ => []

/-- Whether a request is for anything but more or less to be told. -/
def Request.matters : Request → Bool
  | .setVerbose _ => false
  | _ => true

namespace Session

open Compilation

theorem outcome_run (session : Session) (job : Job) :
    outcome job.run session = job.alone session.scene := by
  obtain ⟨_, -, hrun⟩ := comesTo_run job session rfl
  exact (outcome_of_settle hrun).1

theorem alone_of_run {job : Job} {session after : Session} {program : Program}
    (h : job.run session = .ok program after) : job.alone session.scene = .ok program := by
  rw [← session.outcome_run job, outcome, h]

theorem run_of_alone {job : Job} {session : Session} {program : Program}
    (h : job.alone session.scene = .ok program) : ∃ after, job.run session = .ok program after := by
  obtain ⟨_, -, hrun⟩ := comesTo_run job session rfl
  rw [h] at hrun
  exact ⟨_, hrun⟩

/-- A request sets the scene, adds warnings and, in a session that is verbose, adds to the
transcript. -/
theorem step_eq (session : Session) (request : Request) :
    ∃ text, (session.verbose = false → text = "") ∧
      (session.step request).scene = request.sceneAfter session.scene ∧
      (session.step request).warnings = session.warnings ++ request.added session.scene ∧
      (session.step request).transcript = session.transcript ++ text := by
  cases request with
  | compile job => exact (comesTo_run job).state
  | warn code message => exact (comesTo_warn code message).state
  | log message => exact (comesTo_log message).state
  | setScene scene =>
      exact ⟨"", fun _ => rfl, rfl, (List.append_nil _).symm, (String.append_empty).symm⟩
  | setVerbose verbose =>
      exact ⟨"", fun _ => rfl, rfl, (List.append_nil _).symm, (String.append_empty).symm⟩

theorem scene_after (session : Session) (requests : List Request) :
    (session.after requests).scene = requests.foldl Request.sceneAfter session.scene := by
  induction requests generalizing session with
  | nil => rfl
  | cons request rest ih =>
      obtain ⟨_, -, hscene, -, -⟩ := session.step_eq request
      show ((session.step request).after rest).scene = rest.foldl _
        (request.sceneAfter session.scene)
      rw [ih, hscene]

theorem warnings_grow (session : Session) (requests : List Request) :
    session.warnings <+: (session.after requests).warnings := by
  induction requests generalizing session with
  | nil => exact List.prefix_rfl
  | cons request rest ih =>
      obtain ⟨_, -, -, hwarnings, -⟩ := session.step_eq request
      have hone : session.warnings <+: (session.step request).warnings := by
        rw [hwarnings]
        exact List.prefix_append _ _
      exact hone.trans (ih _)

/-! ## Two runs -/

/-- The two sessions differ at most in how verbose they are and in what they have told. -/
structure Alike (session other : Session) : Prop where
  scene : session.scene = other.scene
  warnings : session.warnings = other.warnings

theorem Alike.step {session other : Session} (h : Alike session other) (request : Request) :
    Alike (session.step request) (other.step request) := by
  obtain ⟨_, -, hscene, hwarnings, -⟩ := session.step_eq request
  obtain ⟨_, -, hscene', hwarnings', -⟩ := other.step_eq request
  exact ⟨by rw [hscene, hscene', h.scene], by rw [hwarnings, hwarnings', h.scene, h.warnings]⟩

/-- Requests for more or less to be told can be left out. -/
theorem Alike.matters {session other : Session} (h : Alike session other)
    (requests : List Request) :
    session.answers requests = other.answers (requests.filter Request.matters) ∧
      Alike (session.after requests) (other.after (requests.filter Request.matters)) := by
  induction requests generalizing session other with
  | nil => exact ⟨rfl, h⟩
  | cons request rest ih =>
      obtain ⟨hanswers, halike⟩ := ih (h.step request)
      cases request with
      | compile job =>
          refine ⟨?_, halike⟩
          show _ :: _ = _ :: _
          rw [outcome_run, outcome_run, h.scene, hanswers]
      | setVerbose verbose => exact ih ⟨h.scene, h.warnings⟩
      | setScene scene => exact ⟨hanswers, halike⟩
      | warn code message => exact ⟨hanswers, halike⟩
      | log message => exact ⟨hanswers, halike⟩

/-- **Compilations of a session do not touch each other.**  Whatever has been requested of a
session before, a job gives back what a new session for the current scene gives for it, and adds
the warnings that a generator of its own records, also if it fails.  While a generator runs, the
session that is attached to it is in step with it.  Warnings are never taken away.  A session
that is not verbose tells nothing, and two runs whose requests differ only in the verbosity give
the same answers, scene and warnings.

A scene that is a text or null can be told.  If one cannot, a job ends before there is a
generator, and adds no warning. -/
theorem compilations_isolated (start : Session) (history : List Request) :
    (start.after history).scene = history.foldl Request.sceneAfter start.scene ∧
    (∀ (job : Job) verbose, outcome job.run (start.after history) =
      outcome job.run { verbose := verbose, scene := (start.after history).scene }) ∧
    (∀ job, ((start.after history).step (.compile job)).warnings =
      (start.after history).warnings ++
        (job.warnings (start.after history).scene).map Warning.text) ∧
    (∀ (job : Job) script symbols scope, job.read = .ok (script, symbols) →
      Scope.ofScene symbols (start.after history).scene = .ok scope →
      (SceneTold (start.after history).scene → job.warnings (start.after history).scene =
        (stateAfter (scope.generate script) {}).warnings) ∧
      (¬ SceneTold (start.after history).scene → job.warnings (start.after history).scene = [])) ∧
    (∀ (scope : Scope) script, Lockstep (scope.layOut listener.steps script)) ∧
    start.warnings <+: (start.after history).warnings ∧
    (∀ request, (start.after history).verbose = false →
      ((start.after history).step request).transcript = (start.after history).transcript) ∧
    ∀ other others, Alike other start →
      others.filter Request.matters = history.filter Request.matters →
      other.answers others = start.answers history ∧
        Alike (other.after others) (start.after history) := by
  refine ⟨start.scene_after history, ?_, ?_, ?_, lockstep_layOut, start.warnings_grow history,
    ?_, ?_⟩
  · intro job verbose
    rw [outcome_run, outcome_run]
  · intro job
    obtain ⟨_, -, -, hwarnings, -⟩ := (start.after history).step_eq (.compile job)
    exact hwarnings
  · intro job script symbols scope hread hscope
    constructor
    · intro htold
      rw [Job.warnings, Job.prepare_ok.mpr ⟨htold, symbols, hread, hscope⟩]
    · intro huntold
      obtain ⟨fault, hprepare⟩ := Job.prepare_untold huntold
      rw [Job.warnings, hprepare]
  · intro request hverbose
    obtain ⟨text, hquiet, -, -, htranscript⟩ := (start.after history).step_eq request
    rw [htranscript, hquiet hverbose, String.append_empty]
  · intro other others halike hfilter
    have hsame : Alike start start := ⟨rfl, rfl⟩
    obtain ⟨hanswers, hother⟩ := halike.matters others
    obtain ⟨hanswers', hstart⟩ := hsame.matters history
    rw [hfilter] at hanswers hother
    refine ⟨hanswers.trans hanswers'.symm, ?_⟩
    exact ⟨hother.scene.trans hstart.scene.symm, hother.warnings.trans hstart.warnings.symm⟩

end Session

/-! ## A compilation after one that failed -/

/-- A track that is gone, and then a text that no table has inside a test. -/
def failingJob : Job :=
  .events [.plain .musicPlay [], .whenSet (.str "lamp") [] [.plain .text []]] nestedScope.symbols

/-- A verbose compilation that fails in the middle of a test, and then silence. -/
def failingHistory : List Request := [.setVerbose true, .compile failingJob, .setVerbose false]

theorem compilations_isolated_failing :
    (∃ fault, ({} : Session).answers failingHistory = [.error fault]) ∧
    (({} : Session).after failingHistory).warnings =
      ["SC0002: Music 'None' not found, playing first track"] ∧
    outcome (Job.events nestedScript nestedScope.symbols).run
      (({} : Session).after failingHistory) =
      outcome (Job.events nestedScript nestedScope.symbols).run {} ∧
    ((({} : Session).after failingHistory).step (.log "idle")).transcript =
      (({} : Session).after failingHistory).transcript ∧
    ({} : Session).answers [.compile failingJob] = ({} : Session).answers failingHistory := by
  obtain ⟨-, hfresh, -, -, -, -, hquiet, htwo⟩ := Session.compilations_isolated {} failingHistory
  refine ⟨⟨_, rfl⟩, rfl, hfresh _ false, hquiet _ rfl, ?_⟩
  exact (htwo {} [.compile failingJob] ⟨rfl, rfl⟩ rfl).1

end SceneScript
