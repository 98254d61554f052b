import SceneScript.Proofs.Generation
import SceneScript.Session

/-!
# What is attached to a generator

A script is laid out by the same steps whatever they do.  So a relation between the steps of two
generators that is kept by putting steps in a row holds of all their layouts, `Steps.Related`:
one induction over scripts, for every such relation.

It is used for three facts.  A generator with a listener does what the one without it does,
whatever the listener hears, `Listener.forget_layOut`.  A session that is attached to a
generator has at every moment been warned of just what the generator has recorded, in the same
order, `Session.Lockstep`; this holds step by step and also where a step fails.  The third is
about the looks at the output and stands elsewhere.
-/

namespace SceneScript

/-! ## Related layouts -/

/-- `Related scope left right R`: the steps on both sides are related by `R`, as far as a layout
in the scope makes them, and so is what is put together from related parts. -/
structure Steps.Related {m n : Type → Type} [Monad m] [Monad n] (scope : Scope) (left : Steps m)
    (right : Steps n) (R : {α : Type} → m α → n α → Prop) : Prop where
  pure {α : Type} (a : α) : R (pure a : m α) (pure a : n α)
  bind {α β : Type} {x : m α} {y : n α} {f : α → m β} {g : α → n β} :
    R x y → (∀ a, R (f a) (g a)) → R (x >>= f) (y >>= g)
  enter (event : Event) : R (left.enter event) (right.enter event)
  emit (kind : EventKind) (args : Fields) :
    R (left.orFail (scope.emit kind args)) (right.orFail (scope.emit kind args))
  flag (args : Fields) :
    R (left.orFail (Symbols.flagIndex scope.symbols.flags (args.get "flag")))
      (right.orFail (Symbols.flagIndex scope.symbols.flags (args.get "flag")))
  warn (warning : Warning) : R (left.warn warning) (right.warn warning)
  extend (values : List Value) : R (left.extend values) (right.extend values)
  reserve : R left.reserve right.reserve
  patchHere (place : Nat) : R (left.patchHere place) (right.patchHere place)
  check (command args : Value) : R (left.check command args) (right.check command args)

namespace Steps.Related

variable {m n : Type → Type} [Monad m] [Monad n] {scope : Scope} {left : Steps m} {right : Steps n}
  {R : {α : Type} → m α → n α → Prop}

theorem place (h : Related scope left right R) (emission : Emission) :
    R (left.place emission) (right.place emission) := by
  have hwarnings : ∀ warnings : List Warning,
      R (warnings.forM left.warn) (warnings.forM right.warn) := by
    intro warnings
    induction warnings with
    | nil => exact h.pure ()
    | cons warning rest ih => exact h.bind (h.warn warning) fun _ => ih
  exact h.bind (hwarnings _) fun _ => h.extend _

theorem conditional (h : Related scope left right R) (args : Fields) {whenSet whenClear : m Unit}
    {whenSet' whenClear' : n Unit} (hset : R whenSet whenSet') (hclear : R whenClear whenClear') :
    R (left.conditional scope args whenSet whenClear)
      (right.conditional scope args whenSet' whenClear') := by
  refine h.bind (h.flag args) fun index => h.bind (h.extend _) fun _ => ?_
  refine h.bind h.reserve fun setAddress => h.bind hclear fun _ => ?_
  refine h.bind (h.extend _) fun _ => h.bind h.reserve fun endAddress => ?_
  exact h.bind (h.patchHere _) fun _ => h.bind hset fun _ => h.patchHere _

theorem cons (h : Related scope left right R) {event : Event} {rest : Script}
    (hevent : R (scope.layOutEvent left event) (scope.layOutEvent right event))
    (hrest : R (scope.layOutEvents left rest) (scope.layOutEvents right rest)) :
    R (scope.layOutEvents left (event :: rest)) (scope.layOutEvents right (event :: rest)) := by
  rw [Scope.layOutEvents, Scope.layOutEvents]
  exact h.bind (h.enter event) fun _ => h.bind hevent fun _ => h.bind (h.check _ _) fun _ => hrest

/-- Related steps lay out every script in related ways. -/
theorem layOutEvents (h : Related scope left right R) (script : Script) :
    R (scope.layOutEvents left script) (scope.layOutEvents right script) := by
  induction script using Script.induction with
  | nil =>
      rw [Scope.layOutEvents, Scope.layOutEvents]
      exact h.pure ()
  | leaf event rest hleaf ih =>
      refine h.cons ?_ ih
      rw [Scope.layOutEvent_leaf hleaf, Scope.layOutEvent_leaf hleaf]
      exact h.bind (h.emit _ _) fun emission => h.place emission
  | test event rest whenSet whenClear htest ihSet ihClear ih =>
      refine h.cons ?_ ih
      rw [Scope.layOutEvent_test htest, Scope.layOutEvent_test htest]
      exact h.conditional event.args ihSet ihClear

theorem layOutBlock (h : Related scope left right R) (script : Script) (isBody : Bool) :
    R (scope.layOutBlock left script isBody) (scope.layOutBlock right script isBody) := by
  refine h.bind (h.layOutEvents script) fun _ => ?_
  cases isBody with
  | true => exact h.pure ()
  | false => exact h.extend _

theorem layOut (h : Related scope left right R) (hfreeze : R left.freeze right.freeze)
    (script : Script) : R (scope.layOut left script) (scope.layOut right script) :=
  h.bind (h.layOutBlock script false) fun _ => hfreeze

end Steps.Related

/-! ## Listeners are only listeners -/

/-- The end of a run without what was attached. -/
def Attached.forget {σ α : Type} : EStateM.Result Fault (Attached σ) α →
    EStateM.Result Fault Generator α
  | .ok a s => .ok a s.generator
  | .error fault s => .error fault s.generator

namespace AttachedGeneration

variable {σ α β : Type}

/-- Without what is attached, the one step is the other. -/
def Forgets (x : AttachedGeneration σ α) (y : Generation α) : Prop :=
  ∀ s, Attached.forget (x s) = y s.generator

theorem lift_ok {x : Generation α} {s : Attached σ} {a : α} {t : Generator}
    (h : x s.generator = .ok a t) : lift x s = .ok a ⟨t, s.attached⟩ := by
  rw [lift, h]

theorem forgets_lift (x : Generation α) : Forgets (lift x : AttachedGeneration σ α) x := by
  intro s
  unfold lift
  cases x s.generator with
  | ok a t => rfl
  | error fault t => rfl

theorem Forgets.bind {x : AttachedGeneration σ α} {y : Generation α}
    {f : α → AttachedGeneration σ β} {g : α → Generation β} (hx : Forgets x y)
    (hf : ∀ a, Forgets (f a) (g a)) : Forgets (x >>= f) (y >>= g) := by
  intro s
  show Attached.forget (EStateM.bind x f s) = EStateM.bind y g s.generator
  rw [EStateM.bind, EStateM.bind, ← hx s]
  cases x s with
  | ok a t => exact hf a t
  | error fault t => rfl

end AttachedGeneration

namespace Listener

open AttachedGeneration

variable {σ : Type}

theorem related_forgets (listener : Listener σ) (scope : Scope) :
    Steps.Related scope listener.steps Generation.steps Forgets where
  pure _ := fun _ => rfl
  bind := Forgets.bind
  enter _ := fun _ => rfl
  emit _ _ := forgets_lift _
  flag _ := forgets_lift _
  warn _ := fun _ => rfl
  extend _ := forgets_lift (Generation.extend _)
  reserve := forgets_lift Generation.reserve
  patchHere _ := fun s => forgets_lift _ ⟨s.generator, _⟩
  check _ _ := fun s => forgets_lift _ ⟨s.generator, _⟩

/-- Whatever a listener hears, the generator does what it does alone. -/
theorem forget_layOut (listener : Listener σ) (scope : Scope) (script : Script) (s : Attached σ) :
    Attached.forget (scope.layOut listener.steps script s) = scope.generate script s.generator :=
  (listener.related_forgets scope).layOut (forgets_lift Generation.freeze) script s

theorem forget_layOutBlock (listener : Listener σ) (scope : Scope) (script : Script) (isBody : Bool)
    (s : Attached σ) :
    Attached.forget (scope.layOutBlock listener.steps script isBody s) =
      scope.generateBlock script isBody s.generator :=
  (listener.related_forgets scope).layOutBlock script isBody s

/-- A listener hears of the warnings of an emission one by one. -/
theorem place_run (listener : Listener σ) (e : Emission) (s : Attached σ) :
    listener.steps.place e s =
      .ok () ⟨s.generator.add e.slots e.warnings,
        e.warnings.foldl (fun heard w => listener.warned w heard) s.attached⟩ := by
  have hwarnings : ∀ (warnings : List Warning) (t : Attached σ),
      warnings.forM listener.steps.warn t =
        .ok () ⟨t.generator.add [] warnings,
          warnings.foldl (fun heard w => listener.warned w heard) t.attached⟩ := by
    intro warnings
    induction warnings with
    | nil =>
        intro t
        rw [t.generator.add_nil]
        rfl
    | cons w rest ih =>
        intro t
        have hone : listener.steps.warn w t =
            .ok () ⟨t.generator.add [] [w], listener.warned w t.attached⟩ :=
          bind_ok.mpr ⟨(), _, lift_ok (Generation.warn_run w t.generator), rfl⟩
        refine bind_ok.mpr ⟨(), _, hone, ?_⟩
        rw [ih, Generator.add_add]
        rfl
  refine bind_ok.mpr ⟨(), _, hwarnings e.warnings s, ?_⟩
  have hextend := lift_ok (s := ⟨s.generator.add [] e.warnings,
    e.warnings.foldl (fun heard w => listener.warned w heard) s.attached⟩)
    (Generation.extend_run e.slots _)
  rw [Generator.add_add, List.append_nil] at hextend
  exact hextend

end Listener

/-! ## Steps on the output alone -/

/-- The end of a run with the warnings replaced. -/
def Generator.carry {α : Type} (warnings : List Warning) :
    EStateM.Result Fault Generator α → EStateM.Result Fault Generator α
  | .ok a s => .ok a ⟨s.output, warnings⟩
  | .error fault s => .error fault ⟨s.output, warnings⟩

/-- The step neither looks at the warnings nor changes them. -/
def Generation.Confined {α : Type} (x : Generation α) : Prop :=
  ∀ output warnings, x ⟨output, warnings⟩ = Generator.carry warnings (x ⟨output, []⟩)

namespace Generation

theorem Confined.warnings_eq {α : Type} {x : Generation α} (h : x.Confined) (s : Generator) :
    (stateAfter x s).warnings = s.warnings := by
  rw [stateAfter, h s.output s.warnings]
  cases x ⟨s.output, []⟩ with
  | ok a t => rfl
  | error fault t => rfl

theorem confined_orFail {α : Type} (r : Except Fault α) : (orFail r).Confined := by
  intro output warnings
  cases r with
  | ok a => rfl
  | error e => rfl

theorem confined_extend (values : List Value) : (extend values).Confined := fun _ _ => rfl

theorem confined_reserve : reserve.Confined := fun _ _ => rfl

theorem confined_patchHere (place : Nat) : (patchHere place).Confined := by
  intro output warnings
  unfold patchHere
  cases Output.patch (.nat place) (.nat output.size) output with
  | ok _ patched => rfl
  | error fault patched => rfl

theorem confined_check (command args : Value) : (check command args).Confined := by
  intro output warnings
  rw [check, get_bind, get_bind]
  cases output.check command args with
  | ok _ => rfl
  | error fault => rfl

theorem confined_freeze : freeze.Confined := by
  intro output warnings
  rw [freeze, get_bind, get_bind]
  cases output.freeze with
  | ok program => rfl
  | error fault => rfl

end Generation

theorem AttachedGeneration.stateAfter_lift {σ α : Type} (x : Generation α) (s : Attached σ) :
    stateAfter (lift x) s = ⟨stateAfter x s.generator, s.attached⟩ := by
  unfold stateAfter lift
  cases x s.generator with
  | ok a t => rfl
  | error fault t => rfl

/-! ## Sessions in step with a generator -/

namespace Session

/-- The session after it has been warned of several fallbacks. -/
def warnAll (session : Session) (warnings : List Warning) : Session :=
  warnings.foldl (fun session w => session.warn w.code w.message) session

theorem warnAll_append (session : Session) (warnings others : List Warning) :
    session.warnAll (warnings ++ others) = (session.warnAll warnings).warnAll others :=
  List.foldl_append

/-- Whether the step succeeds or fails, the generator has recorded some more warnings, and the
session has been warned of just these, in the same order, and is otherwise as it was. -/
def Lockstep {α : Type} (x : AttachedGeneration Session α) : Prop :=
  ∀ s, ∃ added, (stateAfter x s).generator.warnings = s.generator.warnings ++ added ∧
    (stateAfter x s).attached = s.attached.warnAll added

open AttachedGeneration in
theorem lockstep_lift {α : Type} {x : Generation α} (h : x.Confined) : Lockstep (lift x) := by
  intro s
  refine ⟨[], ?_, ?_⟩
  · rw [stateAfter_lift, List.append_nil]
    exact h.warnings_eq s.generator
  · rw [stateAfter_lift]
    rfl

theorem lockstep_warn (warning : Warning) : Lockstep (listener.steps.warn warning) :=
  fun _ => ⟨[warning], rfl, rfl⟩

theorem Lockstep.bind {α β : Type} {x : AttachedGeneration Session α}
    {f : α → AttachedGeneration Session β} (hx : Lockstep x) (hf : ∀ a, Lockstep (f a)) :
    Lockstep (x >>= f) := by
  intro s
  obtain ⟨added, hwarnings, hsession⟩ := hx s
  rcases stateAfter_bind x f s with ⟨fault, hfirst⟩ | ⟨a, t, hfirst, hsecond⟩
  · rw [stateAfter_error hfirst] at hwarnings hsession
    exact ⟨added, hwarnings, hsession⟩
  · rw [stateAfter_ok hfirst] at hwarnings hsession
    obtain ⟨others, hwarnings', hsession'⟩ := hf a t
    refine ⟨added ++ others, ?_, ?_⟩
    · rw [hsecond, hwarnings', hwarnings, List.append_assoc]
    · rw [hsecond, hsession', hsession, warnAll_append]

open Generation in
theorem related_lockstep (scope : Scope) :
    Steps.Related scope listener.steps listener.steps fun x _ => Lockstep x where
  pure _ := fun _ => ⟨[], (List.append_nil _).symm, rfl⟩
  bind := Lockstep.bind
  enter _ := fun _ => ⟨[], (List.append_nil _).symm, rfl⟩
  emit _ _ := lockstep_lift (confined_orFail _)
  flag _ := lockstep_lift (confined_orFail _)
  warn := lockstep_warn
  extend _ := lockstep_lift (confined_extend _)
  reserve := lockstep_lift confined_reserve
  patchHere _ := lockstep_lift (confined_patchHere _)
  check _ _ := lockstep_lift (confined_check _ _)

/-- A session that is attached to a generator records what the generator records. -/
theorem lockstep_layOut (scope : Scope) (script : Script) :
    Lockstep (scope.layOut listener.steps script) :=
  (related_lockstep scope).layOut (lockstep_lift Generation.confined_freeze) script

end Session

/-- Generation in a session comes to what a generator of its own comes to, and the session has
been warned of what that has recorded. -/
theorem Compilation.generate_run (scope : Scope) (script : Script) (session : Session) :
    Compilation.generate scope script session =
      match scope.generate script {} with
      | .ok program state => .ok program (session.warnAll state.warnings)
      | .error fault state => .error fault (session.warnAll state.warnings) := by
  have hforget := Session.listener.forget_layOut scope script ⟨{}, session⟩
  obtain ⟨added, hwarnings, hsession⟩ := Session.lockstep_layOut scope script ⟨{}, session⟩
  rw [← hforget]
  unfold Compilation.generate
  unfold stateAfter at hwarnings hsession
  generalize scope.layOut Session.listener.steps script ⟨{}, session⟩ = run at hwarnings hsession
  obtain rfl : _ = added := hwarnings.trans (List.nil_append _)
  cases run with
  | ok program state => exact congrArg (EStateM.Result.ok program) hsession
  | error fault state => exact congrArg (EStateM.Result.error fault) hsession

/-- A compilation tells how it starts, generates, and if it has a program tells how long that is. -/
theorem Compilation.compileScript_run {script : Script} {symbols : Symbols} {session : Session}
    {message : String} {scope : Scope}
    (hmessage : Compilation.startMessage session.scene script = .ok message)
    (hscope : Scope.ofScene symbols session.scene = .ok scope) :
    Compilation.compileScript script symbols session =
      match scope.generate script {} with
      | .ok program state =>
        .ok program (((session.log message).warnAll state.warnings).log
          ("  Generated " ++ toString program.length ++ " bytes"))
      | .error fault state => .error fault ((session.log message).warnAll state.warnings) := by
  have hrun := Compilation.generate_run scope script (session.log message)
  unfold Compilation.compileScript
  rw [get_bind, hmessage, hscope]
  show (Compilation.generate scope script >>= fun program =>
    (Compilation.log ("  Generated " ++ toString program.length ++ " bytes") >>=
      fun _ => pure program)) (session.log message) = _
  cases hgenerate : scope.generate script {} with
  | ok program state =>
      rw [hgenerate] at hrun
      exact bind_run hrun _
  | error fault state =>
      rw [hgenerate] at hrun
      exact bind_error.mpr (.inl hrun)

theorem Compilation.compileScript_of_generate {script : Script} {symbols : Symbols}
    {session : Session} {message : String} {scope : Scope} {program : Program} {state : Generator}
    (hmessage : Compilation.startMessage session.scene script = .ok message)
    (hscope : Scope.ofScene symbols session.scene = .ok scope)
    (hgenerate : scope.generate script {} = .ok program state) :
    ∃ after, Compilation.compileScript script symbols session = .ok program after := by
  rw [Compilation.compileScript_run hmessage hscope, hgenerate]
  exact ⟨_, rfl⟩

end SceneScript
