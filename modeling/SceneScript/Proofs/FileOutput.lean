import SceneScript.CommandLine.Run
import SceneScript.Proofs.Disassembly
import SceneScript.Proofs.Disk
import SceneScript.Proofs.Isolation

/-!
# Compiling files is all or nothing

A compilation of files can fail in many places: a file is missing, is no text or no JSON, the
script or the tables are malformed, generation fails, the output cannot be opened.  There is one
write, and it comes behind all of these.  What comes behind the write is the listing, which
needs the program to be disassembled again, and a report of progress.  Neither fails, so a
program that was written is never followed by a failure.

As for compilations of a session, every step is of one sort, `FileStep.ComesTo`: for a given
scene and a given disk it has one result and leaves one disk, whatever else the workshop holds.
What a whole compilation comes to is told apart from the steps, by `FileJob.result`.
-/

namespace SceneScript

/-- The value in a file that can be read as UTF-8 and as JSON. -/
def Disk.value (disk : Disk) (file : SwitchArgument) : Except Fault Value := do
  let path ← file.path
  let bytes ← disk.read path
  FileStep.valueOfBytes bytes

/-- The place at which the program of a job goes, if it can be opened. -/
def Disk.target (disk : Disk) (file : SwitchArgument) : Except Fault Place := do
  let path ← file.path
  disk.placeForWriting path

/-- What a job on files comes to: a program and its place, or the first fault. -/
def FileJob.result (job : FileJob) (scene : Value) (disk : Disk) :
    Except Fault (Program × Place) := do
  let script ← disk.value (.word job.input)
  let tables ← disk.value job.tables
  let program ← (Job.values script tables).alone scene
  let place ← disk.target job.output
  return (program, place)

/-! ## What a step comes to -/

namespace FileStep

/-- In every workshop with this disk whose session is for the scene, the step gives back the
result and leaves the other disk.  The scene stays; warnings, transcript and what is printed are
not looked at. -/
def ComesTo {α : Type} (x : FileStep α) (scene : Value) (disk : Disk) (result : Except Fault α)
    (after : Disk) : Prop :=
  ∀ shop : Workshop, shop.session.scene = scene → shop.disk = disk →
    ∃ shop' : Workshop, shop'.session.scene = scene ∧ shop'.disk = after ∧
      x shop = settle result shop'

variable {scene : Value} {disk : Disk}

theorem comesTo_pure {α : Type} (a : α) : ComesTo (pure a) scene disk (.ok a) disk := by
  intro shop hscene hdisk
  exact ⟨shop, hscene, hdisk, rfl⟩

theorem comesTo_throw {α : Type} (fault : Fault) :
    ComesTo (throw fault : FileStep α) scene disk (.error fault) disk := by
  intro shop hscene hdisk
  exact ⟨shop, hscene, hdisk, rfl⟩

theorem comesTo_ofResult {α : Type} (result : Except Fault α) :
    ComesTo (ofResult result) scene disk result disk := by
  cases result with
  | ok a => exact comesTo_pure a
  | error fault => exact comesTo_throw fault

theorem comesTo_get {α : Type} {f : Workshop → FileStep α} {result : Except Fault α} {after : Disk}
    (h : ∀ shop, shop.disk = disk → ComesTo (f shop) scene disk result after) :
    ComesTo (get >>= f) scene disk result after := by
  intro shop hscene hdisk
  rw [get_bind]
  exact h shop hdisk shop hscene hdisk

theorem comesTo_print (line : String) : ComesTo (print line) scene disk (.ok ()) disk := by
  intro shop hscene hdisk
  exact ⟨{ shop with printed := shop.printed ++ line ++ "\n" }, hscene, hdisk, rfl⟩

theorem comesTo_write (place : Place) (bytes : List UInt8) :
    ComesTo (modify fun shop : Workshop => { shop with disk := shop.disk.write place bytes })
      scene disk (.ok ()) (disk.write place bytes) := by
  intro shop hscene hdisk
  exact ⟨{ shop with disk := shop.disk.write place bytes }, hscene,
    congrArg (·.write place bytes) hdisk, rfl⟩

/-- A step of the session does not touch the disk. -/
theorem comesTo_ofCompilation {α : Type} {x : Compilation α} {result : Except Fault α}
    {warnings : List String} (h : Compilation.ComesTo x scene result warnings) :
    ComesTo (ofCompilation x) scene disk result disk := by
  intro shop hscene hdisk
  obtain ⟨text, -, hrun⟩ := h shop.session hscene
  refine ⟨{ shop with session := shop.session.add warnings text }, hscene, hdisk, ?_⟩
  rw [ofCompilation, hrun]
  cases result <;> rfl

theorem comesTo_log (message : String) : ComesTo (log message) scene disk (.ok ()) disk :=
  comesTo_ofCompilation (Compilation.comesTo_log message)

theorem ComesTo.bind {α β : Type} {x : FileStep α} {f : α → FileStep β} {a : α}
    {result : Except Fault β} {middle after : Disk} (hx : ComesTo x scene disk (.ok a) middle)
    (hf : ComesTo (f a) scene middle result after) : ComesTo (x >>= f) scene disk result after := by
  intro shop hscene hdisk
  obtain ⟨shop', hscene', hdisk', hrun⟩ := hx shop hscene hdisk
  obtain ⟨shop'', hscene'', hdisk'', hrun'⟩ := hf shop' hscene' hdisk'
  refine ⟨shop'', hscene'', hdisk'', ?_⟩
  rw [← hrun']
  show EStateM.bind x f shop = _
  rw [EStateM.bind, hrun]
  rfl

theorem ComesTo.bind_error {α β : Type} {x : FileStep α} {f : α → FileStep β} {fault : Fault}
    {after : Disk} (hx : ComesTo x scene disk (.error fault) after) :
    ComesTo (x >>= f) scene disk (.error fault) after := by
  intro shop hscene hdisk
  obtain ⟨shop', hscene', hdisk', hrun⟩ := hx shop hscene hdisk
  exact ⟨shop', hscene', hdisk', SceneScript.bind_error.mpr (.inl hrun)⟩

/-- Steps that leave the disk are put together as their results are. -/
theorem ComesTo.bind_result {α β : Type} {x : FileStep α} {f : α → FileStep β}
    {result : Except Fault α} {g : α → Except Fault β} (hx : ComesTo x scene disk result disk)
    (hf : ∀ a, ComesTo (f a) scene disk (g a) disk) :
    ComesTo (x >>= f) scene disk (result >>= g) disk := by
  cases result with
  | ok a => exact hx.bind (hf a)
  | error fault => exact hx.bind_error

/-! ## The steps of a compilation -/

theorem comesTo_readJson (file : SwitchArgument) :
    ComesTo (readJson file) scene disk (disk.value file) disk := by
  refine (comesTo_log _).bind (comesTo_get ?_)
  intro shop hdisk
  rw [hdisk]
  refine (comesTo_ofResult file.path).bind_result ?_
  intro path
  refine (comesTo_ofResult (disk.read path)).bind_result ?_
  intro bytes
  exact comesTo_ofResult (valueOfBytes bytes)

theorem comesTo_writeProgram {file : SwitchArgument} {place : Place}
    (h : disk.target file = .ok place) (program : Program) :
    ComesTo (writeProgram file program) scene disk (.ok ()) (disk.write place program) := by
  obtain ⟨path, hpath, hplace⟩ := result_bind_ok.mp h
  refine (comesTo_log _).bind (comesTo_get ?_)
  intro shop hdisk
  rw [hdisk, hpath]
  refine (comesTo_ofResult (.ok path)).bind ?_
  rw [hplace]
  exact (comesTo_ofResult (.ok place)).bind (comesTo_write place program)

theorem comesTo_writeProgram_error {file : SwitchArgument} {fault : Fault}
    (h : disk.target file = .error fault) (program : Program) :
    ComesTo (writeProgram file program) scene disk (.error fault) disk := by
  refine (comesTo_log _).bind (comesTo_get ?_)
  intro shop hdisk
  rw [hdisk]
  rcases result_bind_error.mp h with hpath | ⟨path, hpath, hplace⟩
  · rw [hpath]
    exact (comesTo_ofResult (.error fault)).bind_error
  · rw [hpath]
    refine (comesTo_ofResult (.ok path)).bind ?_
    rw [hplace]
    exact (comesTo_ofResult (.error fault)).bind_error

theorem comesTo_compileValues (script tables : Value) :
    ComesTo (ofCompilation (Compilation.compileValues script tables)) scene disk
      ((Job.values script tables).alone scene) disk :=
  comesTo_ofCompilation (Compilation.comesTo_run (.values script tables))

/-- What a generator has made can be listed. -/
theorem listing_of_alone {job : Job} {program : Program} (h : job.alone scene = .ok program) :
    ∃ text, listing program = .ok text := by
  obtain ⟨_, _, _, _, -, -, hgenerate⟩ := Job.alone_ok h
  obtain ⟨plan, hprogram, -⟩ := Scope.assembled_of_generate hgenerate
  refine listing_ok ?_
  rw [hprogram.disassembly]

/-- A job that comes to a program writes it. -/
theorem comesTo_compileFile {job : FileJob} {program : Program} {place : Place}
    (h : job.result scene disk = .ok (program, place)) :
    ComesTo (compileFile job) scene disk (.ok ()) (disk.write place program) := by
  obtain ⟨script, hscript, h⟩ := result_bind_ok.mp h
  obtain ⟨tables, htables, h⟩ := result_bind_ok.mp h
  obtain ⟨found, hprogram, h⟩ := result_bind_ok.mp h
  obtain ⟨target, hplace, h⟩ := result_bind_ok.mp h
  cases h
  obtain ⟨text, htext⟩ := listing_of_alone hprogram
  refine ComesTo.bind (hscript ▸ comesTo_readJson _) ?_
  refine ComesTo.bind (htables ▸ comesTo_readJson _) ?_
  refine ComesTo.bind (hprogram ▸ comesTo_compileValues _ _) ?_
  refine (comesTo_writeProgram hplace program).bind ?_
  -- what is left comes behind the write, and must not fail
  dsimp only
  split
  · rw [htext]
    refine (comesTo_ofResult (.ok text)).bind ?_
    exact (comesTo_print text).bind (comesTo_log _)
  · exact comesTo_log _

/-- A job that comes to a fault leaves the disk. -/
theorem comesTo_compileFile_error {job : FileJob} {fault : Fault}
    (h : job.result scene disk = .error fault) :
    ComesTo (compileFile job) scene disk (.error fault) disk := by
  rcases result_bind_error.mp h with hscript | ⟨script, hscript, h⟩
  · exact ComesTo.bind_error (hscript ▸ comesTo_readJson _)
  refine ComesTo.bind (hscript ▸ comesTo_readJson _) ?_
  rcases result_bind_error.mp h with htables | ⟨tables, htables, h⟩
  · exact ComesTo.bind_error (htables ▸ comesTo_readJson _)
  refine ComesTo.bind (htables ▸ comesTo_readJson _) ?_
  rcases result_bind_error.mp h with hprogram | ⟨program, hprogram, h⟩
  · exact ComesTo.bind_error (hprogram ▸ comesTo_compileValues _ _)
  refine ComesTo.bind (hprogram ▸ comesTo_compileValues _ _) ?_
  rcases result_bind_error.mp h with hplace | ⟨place, -, h⟩
  · exact (comesTo_writeProgram_error hplace program).bind_error
  · cases h

end FileStep

/-! ## The command line -/

/-- How a run ends that a fault has stopped: with the code 1 if the fault is reported, else
without a code. -/
def Fault.exit (fault : Fault) : Except Fault Nat := (fault.report false).map fun _ => 1

theorem Fault.exit_ne_success (fault : Fault) : fault.exit ≠ .ok 0 := by
  rw [Fault.exit]
  intro h
  cases hreport : fault.report false with
  | ok lines =>
      rw [hreport] at h
      cases h
  | error unreported =>
      rw [hreport] at h
      cases h

/-- A verbose session is told more about a fault, but of the same faults. -/
theorem Fault.exit_eq (fault : Fault) (verbose : Bool) :
    fault.exit = (fault.report verbose).map fun _ => 1 := by
  cases fault with
  | malformed cause => cases cause <;> rfl
  | _ => rfl

namespace CommandLine

theorem runJob_ok {job : FileJob} {session : Session} {disk : Disk} {program : Program}
    {place : Place} (h : job.result session.scene disk = .ok (program, place)) :
    (runJob job session disk).exit = .ok 0 ∧
      (runJob job session disk).disk = disk.write place program := by
  obtain ⟨shop, -, hdisk, hrun⟩ :=
    FileStep.comesTo_compileFile h { session := session, disk := disk } rfl rfl
  rw [runJob, hrun]
  exact ⟨rfl, hdisk⟩

theorem runJob_error {job : FileJob} {session : Session} {disk : Disk} {fault : Fault}
    (h : job.result session.scene disk = .error fault) :
    (runJob job session disk).exit = fault.exit ∧ (runJob job session disk).disk = disk := by
  obtain ⟨shop, -, hdisk, hrun⟩ :=
    FileStep.comesTo_compileFile_error h { session := session, disk := disk } rfl rfl
  rw [runJob, hrun, fault.exit_eq session.verbose]
  dsimp only [settle]
  cases fault.report session.verbose with
  | ok lines => exact ⟨rfl, hdisk⟩
  | error unreported => exact ⟨rfl, hdisk⟩

/-- The path that a program goes to: the output that is given, or else the input with the suffix
`.bin`. -/
def outputPath (input : String) (output : Option SwitchArgument) : Except Fault String :=
  match output with
  | none => defaultOutput input
  | some file => file.path

/-- `Builds input tables output session disk program path place`: both files can be read as
JSON, they compile to the program in the session, and the path that it goes to can be opened for
writing, at the place. -/
structure Builds (input : String) (tables : SwitchArgument) (output : Option SwitchArgument)
    (session : Session) (disk : Disk) (program : Program) (path : String) (place : Place) :
    Prop where
  compiles : ∃ script symbols after, disk.value (.word input) = .ok script ∧
    disk.value tables = .ok symbols ∧
    Compilation.compileValues script symbols session = .ok program after
  names : outputPath input output = .ok path
  opens : disk.placeForWriting path = .ok place

section

variable {input path : String} {tables : SwitchArgument} {output : Option SwitchArgument}
  {session : Session} {disk : Disk} {program : Program} {place : Place}

theorem outputPath_ok (h : outputPath input output = .ok path) :
    ∃ file, output.elim ((defaultOutput input).map .word) .ok = .ok file ∧
      file.path = .ok path := by
  cases output with
  | some file => exact ⟨file, rfl, h⟩
  | none =>
      refine ⟨.word path, ?_, rfl⟩
      rw [Option.elim_none, show defaultOutput input = .ok path from h]
      rfl

theorem outputPath_of_ok {file : SwitchArgument}
    (h : output.elim ((defaultOutput input).map .word) .ok = .ok file) :
    outputPath input output = file.path := by
  cases output with
  | some given =>
      cases h
      rfl
  | none =>
      rw [Option.elim_none] at h
      rw [outputPath]
      cases hdefault : defaultOutput input with
      | error fault =>
          rw [hdefault] at h
          cases h
      | ok found =>
          rw [hdefault] at h
          cases h
          rfl

/-- What is built is what a job comes to. -/
theorem Builds.result (h : Builds input tables output session disk program path place)
    (listing : Bool) : ∃ file, output.elim ((defaultOutput input).map .word) .ok = .ok file ∧
      FileJob.result ⟨input, tables, file, listing⟩ session.scene disk = .ok (program, place) := by
  obtain ⟨script, symbols, after, hscript, htables, hrun⟩ := h.compiles
  obtain ⟨file, hfile, hpath⟩ := outputPath_ok h.names
  have halone : (Job.values script symbols).alone session.scene = .ok program :=
    Session.alone_of_run hrun
  have htarget : disk.target file = .ok place := result_bind_ok.mpr ⟨path, hpath, h.opens⟩
  refine ⟨file, hfile, result_bind_ok.mpr ⟨script, hscript,
    result_bind_ok.mpr ⟨symbols, htables, ?_⟩⟩⟩
  exact result_bind_ok.mpr ⟨program, halone, result_bind_ok.mpr ⟨place, htarget, rfl⟩⟩

theorem builds_of_result {file : SwitchArgument} {listing : Bool}
    (hfile : output.elim ((defaultOutput input).map .word) .ok = .ok file)
    (h : FileJob.result ⟨input, tables, file, listing⟩ session.scene disk = .ok (program, place)) :
    ∃ path, Builds input tables output session disk program path place := by
  obtain ⟨script, hscript, h⟩ := result_bind_ok.mp h
  obtain ⟨symbols, htables, h⟩ := result_bind_ok.mp h
  obtain ⟨found, hprogram, h⟩ := result_bind_ok.mp h
  obtain ⟨target, htarget, h⟩ := result_bind_ok.mp h
  cases h
  obtain ⟨path, hpath, hplace⟩ := result_bind_ok.mp htarget
  obtain ⟨after, hrun⟩ := Session.run_of_alone hprogram
  exact ⟨path, ⟨script, symbols, after, hscript, htables, hrun⟩,
    (outputPath_of_ok hfile).trans hpath, hplace⟩

theorem runFiles_of_builds (h : Builds input tables output session disk program path place)
    (listing : Bool) : (runFiles input tables output listing session disk).exit = .ok 0 ∧
      (runFiles input tables output listing session disk).disk = disk.write place program := by
  obtain ⟨file, hfile, hresult⟩ := h.result listing
  rw [runFiles, hfile]
  exact runJob_ok hresult

/-- Nothing is built, and nothing is written. -/
theorem runFiles_of_not_builds (listing : Bool)
    (h : ¬ ∃ program path place, Builds input tables output session disk program path place) :
    (runFiles input tables output listing session disk).exit ≠ .ok 0 ∧
      (runFiles input tables output listing session disk).disk = disk := by
  rw [runFiles]
  cases hfile : output.elim ((defaultOutput input).map .word) .ok with
  | error fault =>
      refine ⟨?_, rfl⟩
      intro hexit
      cases hexit
  | ok file =>
      cases hresult : FileJob.result ⟨input, tables, file, listing⟩ session.scene disk with
      | ok built =>
          obtain ⟨path, hbuilds⟩ := builds_of_result hfile hresult
          exact absurd ⟨_, path, _, hbuilds⟩ h
      | error fault =>
          obtain ⟨hexit, hdisk⟩ := runJob_error hresult
          refine ⟨?_, hdisk⟩
          dsimp only
          rw [hexit]
          exact fault.exit_ne_success

/-- How a run ends and what it leaves depends on the scene of the session, and on nothing else
in it; nor on whether a listing is wanted. -/
theorem runFiles_congr {other : Session} (hscene : other.scene = session.scene)
    (listing wanted : Bool) : (runFiles input tables output wanted other disk).exit =
        (runFiles input tables output listing session disk).exit ∧
      (runFiles input tables output wanted other disk).disk =
        (runFiles input tables output listing session disk).disk := by
  rw [runFiles, runFiles]
  cases output.elim ((defaultOutput input).map .word) .ok with
  | error fault => exact ⟨rfl, rfl⟩
  | ok file =>
      have hsame : FileJob.result ⟨input, tables, file, wanted⟩ other.scene disk =
          FileJob.result ⟨input, tables, file, listing⟩ session.scene disk := by
        rw [hscene]
        rfl
      cases hresult : FileJob.result ⟨input, tables, file, listing⟩ session.scene disk with
      | ok built =>
          obtain ⟨hexit, hdisk⟩ := runJob_ok hresult
          obtain ⟨hexit', hdisk'⟩ := runJob_ok (hsame.trans hresult)
          exact ⟨hexit'.trans hexit.symm, hdisk'.trans hdisk.symm⟩
      | error fault =>
          obtain ⟨hexit, hdisk⟩ := runJob_error hresult
          obtain ⟨hexit', hdisk'⟩ := runJob_error (hsame.trans hresult)
          exact ⟨hexit'.trans hexit.symm, hdisk'.trans hdisk.symm⟩

end

/-- **Compiling files is all or nothing.**  A run on files ends with the code 0 if and only if
both files can be read as JSON, they compile to a program, and the path that it goes to can be
opened for writing.  Then that path holds the program, and at every other place there stands
what stood there before.  If it ends in any other way, with another code or without one, the
disk is what it was.  Neither a listing nor a verbose session changes how it ends and what it
leaves.  The command line does this with the options it was given, and does nothing to the disk
if it refuses them. -/
theorem runFiles_all_or_nothing (input : String) (tables : SwitchArgument)
    (output : Option SwitchArgument) (listing : Bool) (session : Session) (disk : Disk) :
    ((runFiles input tables output listing session disk).exit = .ok 0 ↔
      ∃ program path place, Builds input tables output session disk program path place) ∧
    (∀ program path place, Builds input tables output session disk program path place →
      (runFiles input tables output listing session disk).disk.read path = .ok program ∧
      (runFiles input tables output listing session disk).disk.entry place = .file program ∧
      ∀ other, other ≠ place →
        (runFiles input tables output listing session disk).disk.entry other = disk.entry other) ∧
    ((runFiles input tables output listing session disk).exit ≠ .ok 0 →
      (runFiles input tables output listing session disk).disk = disk) ∧
    (∀ wanted (other : Session), other.scene = session.scene →
      (runFiles input tables output wanted other disk).exit =
          (runFiles input tables output listing session disk).exit ∧
        (runFiles input tables output wanted other disk).disk =
          (runFiles input tables output listing session disk).disk) ∧
    ∀ name words,
      (∃ refusal, parseOptions words = .error refusal ∧ (run name words disk).disk = disk) ∨
      ∃ o, parseOptions words = .ok o ∧ run name words disk =
        runFiles (o.input.getD "") (o.tables.getD .empty) o.output o.listing o.session disk := by
  refine ⟨⟨?_, ?_⟩, ?_, ?_, ?_, ?_⟩
  · intro hexit
    apply Classical.byContradiction
    intro hnone
    exact (runFiles_of_not_builds listing hnone).1 hexit
  · rintro ⟨program, path, place, hbuilds⟩
    exact (runFiles_of_builds hbuilds listing).1
  · intro program path place hbuilds
    rw [(runFiles_of_builds hbuilds listing).2]
    have hrooted := Disk.rooted_of_placeForWriting hbuilds.opens
    refine ⟨Disk.read_write hbuilds.opens program, disk.entry_write place program, ?_⟩
    intro other hne
    exact Disk.entry_write_of_ne hrooted hne program
  · intro hexit
    refine (runFiles_of_not_builds listing ?_).2
    rintro ⟨program, path, place, hbuilds⟩
    exact hexit (runFiles_of_builds hbuilds listing).1
  · intro wanted other hscene
    exact runFiles_congr hscene listing wanted
  · intro name words
    cases hoptions : parseOptions words with
    | ok o =>
        refine .inr ⟨o, rfl, ?_⟩
        rw [run, hoptions]
        rfl
    | error refusal =>
        refine .inl ⟨refusal, rfl, ?_⟩
        rw [run, hoptions]
        cases refusal <;> rfl

/-! ## A disk with two files -/

/-- The file of a script that fades in: `[{"command":"EVENT_FADE_IN"}]`. -/
def fadeBytes : List UInt8 :=
  [91, 123, 34, 99, 111, 109, 109, 97, 110, 100, 34, 58, 34, 69, 86, 69, 78, 84, 95, 70, 65,
   68, 69, 95, 73, 78, 34, 125, 93]

/-- A script and empty tables. -/
def twoFiles : Disk where
  files := [(["a.json"], fadeBytes), (["t.json"], [123, 125])]

theorem result_of_toOption {α : Type} {x : Except Fault α} {a : α} (h : x.toOption = some a) :
    x = .ok a := by
  cases x with
  | ok b => rw [Option.some.inj h]
  | error fault => cases h

theorem value_twoFiles (name : String) (bytes : List UInt8) {value : Value}
    (hbytes : (twoFiles.read name).toOption = some bytes)
    (hvalue : FileStep.valueOfBytes bytes = .ok value) : twoFiles.value (.word name) = .ok value :=
  result_bind_ok.mpr ⟨name, rfl, result_bind_ok.mpr ⟨bytes, result_of_toOption hbytes, hvalue⟩⟩

theorem builds_twoFiles :
    Builds "a.json" (.word "t.json") none {} twoFiles [13, 1, 0] "a.bin" ["a.bin"] where
  compiles := by
    have hscript : twoFiles.value (.word "a.json") =
        .ok (.list [.object [(.str "command", .str "EVENT_FADE_IN")]]) :=
      value_twoFiles "a.json" fadeBytes (by decide +kernel) rfl
    have htables := value_twoFiles "t.json" [123, 125] (by decide +kernel) rfl
    exact ⟨_, .object [], _, hscript, htables, rfl⟩
  names := result_of_toOption (by decide +kernel)
  opens := result_of_toOption (by decide +kernel)

/-- A verbose run with a listing writes the program of the script beside it and leaves the
tables. -/
theorem runFiles_all_or_nothing_twoFiles :
    (runFiles "a.json" (.word "t.json") none true { verbose := true } twoFiles).exit = .ok 0 ∧
      (runFiles "a.json" (.word "t.json") none true { verbose := true } twoFiles).disk.read
        "a.bin" = .ok [13, 1, 0] ∧
      (runFiles "a.json" (.word "t.json") none true { verbose := true } twoFiles).disk.entry
        ["t.json"] = .file [123, 125] := by
  obtain ⟨hexit, hwritten, -, hsame, -⟩ :=
    runFiles_all_or_nothing "a.json" (.word "t.json") none false {} twoFiles
  obtain ⟨hexit', hdisk'⟩ := hsame true { verbose := true } rfl
  obtain ⟨hread, -, hother⟩ := hwritten _ _ _ builds_twoFiles
  rw [hexit', hdisk']
  exact ⟨hexit.mpr ⟨_, _, _, builds_twoFiles⟩, hread, hother ["t.json"] (by decide)⟩

end CommandLine

end SceneScript
