import SceneScript.Proofs.Attachment
import SceneScript.Proofs.Breakage

/-!
# Scans are sufficient and local

The output can be refused in three places: by the scan after an event, by a patch whose address
is beyond 16 bits, and when it is frozen at the end.  In a run from empty output the last never
happens.  No event emits an open slot, whatever its arguments are, and a test that is complete
has none, so the last scan leaves nothing to find.

Every scan goes through the output from its start, although most of it has been scanned before.
This is not needed.  Between two scans slots are added at the end, and the slots before it
change only by patches, which write bytes.  So a slot that has passed a scan would pass every
later one, the first slot that does not pass was added since, and a scan that starts where the
last one ended says the same.

To speak about all scans of a run, a watch is attached to the generator, which notes each scan
and each patch with the output as it stood.  What holds of its record after each step is
`Watch.Sound`, and such steps compose, `Watch.Keeps.bind`.
-/

namespace SceneScript

namespace Output

/-! ## Scanning a part -/

/-- The scan of the slots from a position on. -/
def checkFrom (out : Output) (start : Nat) (command args : Value) : Except Fault Unit :=
  match (⟨out.slots.drop start⟩ : Output).stray? with
  | none => .ok ()
  | some (position, value) =>
    .error (.compile (.outputFailed command args (.nat (start + position)) value))

/-- The output is at least so long, and up to there it would pass a scan. -/
def Cleared (out : Output) (n : Nat) : Prop :=
  n ≤ out.size ∧ ∀ slot ∈ out.slots.take n, acceptable slot

/-- What a scan reports in a part is what it reports in the whole, if the rest of the whole
would pass. -/
theorem stray?_drop {out : Output} {n : Nat} (h : out.Cleared n) :
    out.stray? = (⟨out.slots.drop n⟩ : Output).stray?.map fun found => (n + found.1, found.2) := by
  cases hpart : (⟨out.slots.drop n⟩ : Output).stray? with
  | none =>
      refine stray?_eq_none.mpr fun slot hslot => ?_
      rw [← List.take_append_drop n out.slots] at hslot
      rcases List.mem_append.mp hslot with hslot | hslot
      · exact h.2 slot hslot
      · exact stray?_eq_none.mp hpart slot hslot
  | some found =>
      obtain ⟨position, value⟩ := found
      obtain ⟨hslot, hbad, hfirst⟩ := stray?_eq_some_iff.mp hpart
      simp only [List.getElem?_drop] at hslot hfirst
      refine stray?_eq_some_iff.mpr ⟨hslot, hbad, fun k slot hk hbefore => ?_⟩
      by_cases hkn : k < n
      · exact h.2 slot (List.mem_of_getElem? (by rw [List.getElem?_take_of_lt hkn]; exact hbefore))
      · refine hfirst (k - n) slot (by omega) ?_
        rw [Nat.add_sub_cancel' (Nat.le_of_not_lt hkn)]
        exact hbefore

/-- A scan may start behind slots that would pass it. -/
theorem checkFrom_eq_check {out : Output} {n : Nat} (h : out.Cleared n) (command args : Value) :
    out.checkFrom n command args = out.check command args := by
  rw [checkFrom, check, stray?_drop h]
  cases (⟨out.slots.drop n⟩ : Output).stray? with
  | none => rfl
  | some found => rfl

/-- A slot that would not pass a scan stands behind those that would. -/
theorem Cleared.le_of_not_acceptable {out : Output} {n position : Nat} {value : Value}
    (h : out.Cleared n) (hslot : out.slots[position]? = some value)
    (hbad : acceptable value = false) : n ≤ position := by
  apply Classical.byContradiction
  intro hlt
  have hgood := h.2 value (List.mem_of_getElem?
    (by rw [List.getElem?_take_of_lt (Nat.lt_of_not_le hlt)]; exact hslot))
  rw [hbad] at hgood
  cases hgood

/-! ## What stays cleared -/

theorem cleared_zero (out : Output) : out.Cleared 0 :=
  ⟨Nat.zero_le _, fun _ hslot => absurd hslot List.not_mem_nil⟩

theorem cleared_size {out : Output} (h : ∀ slot ∈ out.slots, acceptable slot) :
    out.Cleared out.size :=
  ⟨Nat.le_refl _, fun slot hslot => h slot (List.mem_of_mem_take hslot)⟩

theorem Cleared.append {slots more : List Value} {n : Nat} (h : Cleared ⟨slots⟩ n) :
    Cleared ⟨slots ++ more⟩ n := by
  obtain ⟨hsize, hslots⟩ := h
  refine ⟨?_, fun slot hslot => hslots slot ?_⟩
  · rw [size, List.length_append]
    exact Nat.le_add_right_of_le hsize
  · rw [List.take_append_of_le_length hsize] at hslot
    exact hslot

/-- Overwriting a slot by something that passes a scan keeps what would pass. -/
theorem Cleared.overwrite {out next : Output} {n : Nat} (h : out.Cleared n) {position : Int}
    {value : Value} (hvalue : acceptable value)
    (hrun : Output.overwrite position value out = .ok () next) : next.Cleared n := by
  rw [Output.overwrite, get_bind] at hrun
  cases hplace : Indexing.place? out.size position with
  | none =>
      rw [hplace] at hrun
      cases hrun
  | some place =>
      rw [hplace] at hrun
      cases hrun
      obtain ⟨hsize, hslots⟩ := h
      refine ⟨by rw [size, List.length_set]; exact hsize, fun slot hslot => ?_⟩
      rw [List.take_set] at hslot
      rcases List.mem_or_eq_of_mem_set hslot with hslot | rfl
      · exact hslots slot hslot
      · exact hvalue

/-- Patching writes two bytes, so that it keeps what would pass a scan, wherever it writes. -/
theorem Cleared.patch {out next : Output} {n place address : Nat} (h : out.Cleared n)
    (hrun : Output.patch (.nat place) (.nat address) out = .ok () next) : next.Cleared n := by
  by_cases hfit : address ≤ 0xffff
  · have hhalf : ∀ half : Nat, half ≤ 255 → acceptable (.int half) := by
      intro half hle
      rw [acceptable, Value.byte?_int, if_pos hle, Option.isSome_some, Bool.or_true]
    have hrange : addressOutOfRange (.nat address) = .ok false := by
      rw [addressOutOfRange_nat, decide_eq_false (by omega)]
    unfold Output.patch at hrun
    rw [hrange] at hrun
    have hwrites : (Output.overwrite place (.int (address / 256 : Nat)) >>= fun _ =>
        Output.overwrite (place + 1 : Nat) (.int (address % 256 : Nat))) out = .ok () next := hrun
    obtain ⟨_, middle, hhigh, hlow⟩ := bind_ok.mp hwrites
    exact (h.overwrite (hhalf _ (by omega)) hhigh).overwrite (hhalf _ (by omega)) hlow
  · rw [patch_refused (by omega)] at hrun
    cases hrun

end Output

/-! ## Runs with a record -/

/-- A place in a run where the output may be refused, with the output as it stood: a scan in the
name of an event, or the patching of an address with that of the next byte. -/
inductive Look where
  | scan (output : Output) (command args : Value)
  | patch (output : Output) (place : Nat)

namespace Look

/-- The output that was looked at. -/
def output : Look → Output
  | .scan output _ _ | .patch output _ => output

/-- What came of it. -/
def verdict : Look → Except Fault Unit
  | .scan output command args => output.check command args
  | .patch output place => outcome (Output.patch (.nat place) (.nat output.size)) output

/-- The number of slots that a scan has gone through. -/
def scanned : Look → Nat
  | .scan output _ _ => output.size
  | .patch .. => 0

end Look

/-- Notes every look at the output. -/
def Listener.watch : Listener (List Look) where
  scanned output command args looks := looks ++ [.scan output command args]
  patched output place looks := looks ++ [.patch output place]

/-- Lays out a whole script, and the end after it, with a record of the looks. -/
def Scope.watch (scope : Scope) (script : Script) : AttachedGeneration (List Look) Unit :=
  scope.layOutBlock Listener.watch.steps script false

/-- The looks at the output in a run from empty output, in order. -/
def Scope.looks (scope : Scope) (script : Script) : List Look :=
  (stateAfter (scope.watch script) ⟨{}, []⟩).attached

/-! ## What holds of a record -/

/-- What earlier scans went through would have passed at every later look. -/
def Look.Ordered (looks : List Look) : Prop :=
  looks.Pairwise fun earlier later => later.output.Cleared earlier.scanned

/-- A generator that is watched. -/
abbrev Watch := Attached (List Look)

namespace Watch

open AttachedGeneration

/-- No look has refused the output, and what the scans went through would pass, then and now. -/
structure Sound (watch : Watch) : Prop where
  passed : ∀ look ∈ watch.attached, look.verdict = .ok ()
  ordered : Look.Ordered watch.attached
  cleared : ∀ look ∈ watch.attached, watch.generator.output.Cleared look.scanned

/-- The record tells how a run has ended: nothing was refused, or an event was, or the last look
has refused the output. -/
inductive Ends {α : Type} : EStateM.Result Fault Watch α → Prop
  | ok {a : α} {after : Watch} : after.Sound → Ends (.ok a after)
  | event {fault : Fault} {after : Watch} : ¬ fault.IsOutputFailed → after.Sound →
    Ends (.error fault after)
  | output {fault : Fault} {generator : Generator} {before : List Look} {last : Look} :
      (∀ look ∈ before, look.verdict = .ok ()) → last.verdict = .error fault →
      Look.Ordered (before ++ [last]) → Ends (.error fault ⟨generator, before ++ [last]⟩)

/-- From a sound record on, the step ends with one that tells how. -/
def Keeps {α : Type} (x : AttachedGeneration (List Look) α) : Prop :=
  ∀ watch : Watch, watch.Sound → Ends (x watch)

/-- However a run ends, what earlier scans went through would have passed at every later look,
and only the last look can have refused the output. -/
theorem Ends.record {α : Type} {x : AttachedGeneration (List Look) α} {watch : Watch}
    (h : Ends (x watch)) : Look.Ordered (stateAfter x watch).attached ∧
      ∀ look ∈ (stateAfter x watch).attached.dropLast, look.verdict = .ok () := by
  unfold stateAfter
  generalize x watch = run at h
  cases h with
  | ok hsound =>
      exact ⟨hsound.ordered, fun look hlook => hsound.passed look (List.dropLast_subset _ hlook)⟩
  | event _ hsound =>
      exact ⟨hsound.ordered, fun look hlook => hsound.passed look (List.dropLast_subset _ hlook)⟩
  | output hpassed _ hordered =>
      refine ⟨hordered, ?_⟩
      rw [List.dropLast_concat]
      exact hpassed

theorem Keeps.bind {α β : Type} {x : AttachedGeneration (List Look) α}
    {f : α → AttachedGeneration (List Look) β} (hx : Keeps x) (hf : ∀ a, Keeps (f a)) :
    Keeps (x >>= f) := by
  intro watch hsound
  show Ends (EStateM.bind x f watch)
  unfold EStateM.bind
  have hfirst := hx watch hsound
  generalize x watch = first at hfirst
  cases hfirst with
  | @ok a after hafter => exact hf a after hafter
  | event hfault hafter => exact .event hfault hafter
  | output hpassed hlast hordered => exact .output hpassed hlast hordered

/-- A record stays sound while slots are added to the output. -/
theorem Sound.add {watch : Watch} (h : watch.Sound) (slots : List Value) (warnings : List Warning) :
    Sound ⟨watch.generator.add slots warnings, watch.attached⟩ where
  passed := h.passed
  ordered := h.ordered
  cleared := fun look hlook => (h.cleared look hlook).append

/-- A step that only adds, and never finds fault with the output, need not be noted. -/
theorem keeps_lift {α : Type} {x : Generation α} (hadds : x.OnlyAdds)
    (hfaults : ∀ s fault t, x s = .error fault t → ¬ fault.IsOutputFailed) : Keeps (lift x) := by
  intro watch hsound
  obtain ⟨slots, warnings, hafter⟩ := hadds watch.generator
  have hadd := hsound.add slots warnings
  unfold lift
  cases hrun : x watch.generator with
  | ok a t =>
      rw [← hafter, stateAfter_ok hrun] at hadd
      exact .ok hadd
  | error fault t =>
      rw [← hafter, stateAfter_error hrun] at hadd
      exact .event (hfaults _ _ _ hrun) hadd

/-- A step that looks at the output is noted.  If the output is not refused, it must keep what
would pass a scan, and what the look itself has gone through must pass. -/
theorem keeps_noting {α : Type} {look : Output → Look} {x : Generation α}
    (houtput : ∀ out, (look out).output = out)
    (hverdict : ∀ s, (look s.output).verdict = (outcome x s).map fun _ => ())
    (hclears : ∀ s a t, x s = .ok a t → t.output.Cleared (look s.output).scanned ∧
      ∀ n, s.output.Cleared n → t.output.Cleared n) :
    Keeps (tell (fun output looks => looks ++ [look output]) >>= fun _ => lift x) := by
  intro watch hsound
  have hordered : Look.Ordered (watch.attached ++ [look watch.generator.output]) := by
    refine List.pairwise_append.mpr ⟨hsound.ordered, List.pairwise_singleton _ _, ?_⟩
    intro earlier hearlier later hlater
    rw [List.mem_singleton.mp hlater, houtput]
    exact hsound.cleared earlier hearlier
  have hlook := hverdict watch.generator
  show Ends (lift x ⟨watch.generator, watch.attached ++ [look watch.generator.output]⟩)
  unfold lift
  dsimp only
  cases hrun : x watch.generator with
  | error fault t =>
      rw [outcome, hrun] at hlook
      exact .output hsound.passed hlook hordered
  | ok a t =>
      rw [outcome, hrun] at hlook
      obtain ⟨hscanned, hkept⟩ := hclears _ _ _ hrun
      refine .ok ⟨?_, hordered, ?_⟩
      · exact List.forall_mem_append.mpr ⟨hsound.passed, List.forall_mem_singleton.mpr hlook⟩
      · exact List.forall_mem_append.mpr ⟨fun look hlook => hkept _ (hsound.cleared look hlook),
          List.forall_mem_singleton.mpr hscanned⟩

/-! The looks. -/

theorem keeps_check (command args : Value) : Keeps (Listener.watch.steps.check command args) := by
  refine keeps_noting (fun _ => rfl) (fun s => ?_) fun s a t hrun => ?_
  · show s.output.check command args = _
    rw [outcome, Generation.check, get_bind]
    cases s.output.check command args with
    | ok _ => rfl
    | error fault => rfl
  · obtain ⟨hscan, rfl⟩ := Generation.check_ok.mp hrun
    exact ⟨Output.cleared_size hscan, fun _ h => h⟩

theorem keeps_patchHere (place : Nat) : Keeps (Listener.watch.steps.patchHere place) := by
  refine keeps_noting (fun _ => rfl) (fun s => ?_) fun s a t hrun => ?_
  · show outcome (Output.patch (.nat place) (.nat s.output.size)) s.output = _
    unfold outcome Generation.patchHere
    cases Output.patch (.nat place) (.nat s.output.size) s.output with
    | ok _ output => rfl
    | error fault output => rfl
  · refine ⟨Output.cleared_zero _, fun n hn => ?_⟩
    unfold Generation.patchHere at hrun
    cases hpatch : Output.patch (.nat place) (.nat s.output.size) s.output with
    | error fault output =>
        rw [hpatch] at hrun
        cases hrun
    | ok _ output =>
        rw [hpatch] at hrun
        cases hrun
        exact hn.patch hpatch

/-! The other steps. -/

theorem keeps_extend (values : List Value) : Keeps (Listener.watch.steps.extend values) := by
  refine keeps_lift (Generation.onlyAdds_extend values) fun s fault t hrun => ?_
  rw [Generation.extend_run] at hrun
  cases hrun

theorem keeps_reserve : Keeps Listener.watch.steps.reserve := by
  refine keeps_lift (x := Generation.reserve) ?_ fun s fault t hrun => ?_
  · intro s
    exact ⟨_, _, stateAfter_ok (Generation.reserve_run s)⟩
  · rw [Generation.reserve_run] at hrun
    cases hrun

/-- What fails without a look at the output does not find fault with it. -/
theorem keeps_orFail {α : Type} {r : Except Fault α}
    (h : ∀ fault, r = .error fault → ¬ fault.IsOutputFailed) :
    Keeps (Listener.watch.steps.orFail r) := by
  refine keeps_lift (Generation.onlyAdds_of_unchanged fun s => ?_) fun s fault t hrun => ?_
  · cases r with
    | ok a => rfl
    | error fault => rfl
  · obtain ⟨hfault, -⟩ := Generation.orFail_error.mp hrun
    exact h fault hfault

theorem keeps_warn (warning : Warning) : Keeps (Listener.watch.steps.warn warning) := by
  have hwarn : Keeps (lift (Generation.warn warning)) := by
    refine keeps_lift (fun s => ⟨_, _, stateAfter_ok (Generation.warn_run warning s)⟩)
      fun s fault t hrun => ?_
    rw [Generation.warn_run] at hrun
    cases hrun
  exact hwarn.bind fun _ _ hsound => .ok hsound

/-- All steps of a layout keep a sound record. -/
theorem related_keeps (scope : Scope) :
    Steps.Related scope Listener.watch.steps Listener.watch.steps fun x _ => Keeps x where
  pure _ := fun _ hsound => .ok hsound
  bind := Keeps.bind
  enter _ := fun _ hsound => .ok hsound
  emit kind args := keeps_orFail fun _ hemit =>
    (@Scope.refuses_of_emit scope (.plain kind args) _ hemit).not_outputFailed
  flag _ := keeps_orFail fun _ hflag => by
    obtain ⟨-, rfl⟩ := Scope.flagIndex_error hflag
    rintro ⟨_, _, _, _, h⟩
    cases h
  warn := keeps_warn
  extend := keeps_extend
  reserve := keeps_reserve
  patchHere := keeps_patchHere
  check := keeps_check

end Watch

namespace Scope

variable {scope : Scope}

/-- A run from empty output ends with a record that tells how. -/
theorem ends_watch (scope : Scope) (script : Script) :
    Watch.Ends (scope.watch script ⟨{}, []⟩) := by
  refine (Watch.related_keeps scope).layOutBlock script false ⟨{}, []⟩ ⟨?_, List.Pairwise.nil, ?_⟩
  · exact fun _ hlook => absurd hlook List.not_mem_nil
  · exact fun _ hlook => absurd hlook List.not_mem_nil

theorem forget_watch (scope : Scope) (script : Script) :
    Attached.forget (scope.watch script ⟨{}, []⟩) = scope.generateBlock script false {} :=
  Listener.watch.forget_layOutBlock scope script false ⟨{}, []⟩

/-- If the output is refused while a script is laid out, the last look has refused it. -/
theorem last_look_of_refused {script : Script} {fault : Fault} {t : Generator}
    (h : scope.generateBlock script false {} = .error fault t) (hfault : fault.IsOutputFailed) :
    ∃ before last, scope.looks script = before ++ [last] ∧ last.verdict = .error fault := by
  have hends := ends_watch scope script
  have hforget := forget_watch scope script
  rw [h] at hforget
  unfold looks stateAfter
  generalize scope.watch script ⟨{}, []⟩ = run at hends hforget
  cases hends with
  | ok => cases hforget
  | event hevent =>
      cases hforget
      exact absurd hfault hevent
  | output _ hlast _ =>
      cases hforget
      exact ⟨_, _, rfl, hlast⟩

/-- What stands before a scan in the record has not refused the output, and what it has gone
through would pass the scan. -/
theorem earlier_of_scan {script : Script} {before later : List Look} {output : Output}
    {command args : Value} (h : scope.looks script = before ++ .scan output command args :: later)
    {look : Look} (hlook : look ∈ before) :
    look.verdict = .ok () ∧ output.Cleared look.scanned := by
  obtain ⟨hordered, hpassed⟩ := (ends_watch scope script).record
  rw [← looks, h] at hordered hpassed
  constructor
  · refine hpassed look ?_
    rw [List.dropLast_append_of_ne_nil (List.cons_ne_nil _ _)]
    exact List.mem_append_left _ hlook
  · exact (List.pairwise_append.mp hordered).2.2 look hlook _ List.mem_cons_self

/-- **Scans are sufficient and local.**  In a run from empty output freezing never fails: if the
output is refused, then by the last look at it before that, which is a scan or a patch.  A scan
that refuses the output reports the first slot that is neither open nor a byte, with what it
holds.  That slot was added after every earlier scan, and all of those have passed, so that a
scan of what was added since any of them reports the same. -/
theorem scans_sufficient_and_local (scope : Scope) (script : Script) :
    Attached.forget (scope.watch script ⟨{}, []⟩) = scope.generateBlock script false {} ∧
    (∀ t, scope.generateBlock script false {} = .ok () t →
      ∃ program, t.output.freeze = .ok program ∧ scope.generate script {} = .ok program t) ∧
    (∀ fault t, scope.generate script {} = .error fault t → fault.IsOutputFailed →
      ∃ before last, scope.looks script = before ++ [last] ∧ last.verdict = .error fault) ∧
    ∀ before output command args later fault,
      scope.looks script = before ++ .scan output command args :: later →
      output.check command args = .error fault →
      ∃ position value, fault = .compile (.outputFailed command args (.nat position) value) ∧
        output.slots[position]? = some value ∧ Output.acceptable value = false ∧
        (∀ (k : Nat) slot, k < position → output.slots[k]? = some slot →
          Output.acceptable slot = true) ∧
        ∀ earlier name fields, .scan earlier name fields ∈ before →
          earlier.check name fields = .ok () ∧ earlier.size ≤ position ∧
            output.checkFrom earlier.size command args = .error fault := by
  refine ⟨forget_watch scope script, fun t ht => freeze_of_generateBlock ht, ?_, ?_⟩
  · intro fault t hrun hfault
    exact last_look_of_refused (generateBlock_of_generate_error hrun) hfault
  · intro before output command args later fault hlooks hcheck
    obtain ⟨position, value, hstray, rfl⟩ := Output.check_error.mp hcheck
    obtain ⟨hslot, hbad, hfirst⟩ := Output.stray?_eq_some_iff.mp hstray
    refine ⟨position, value, rfl, hslot, hbad, hfirst, fun earlier name fields hearlier => ?_⟩
    obtain ⟨hpassed, (hcleared : output.Cleared earlier.size)⟩ := earlier_of_scan hlooks hearlier
    refine ⟨hpassed, hcleared.le_of_not_acceptable hslot hbad, ?_⟩
    rw [Output.checkFrom_eq_check hcleared, hcheck]

end Scope

/-- A test with a fade in each body.  The speed of the fade that is laid out second is no byte. -/
def fadingScript : Script :=
  [.whenSet (.str "lamp") [.plain .fadeOut [(.str "speed", .int 300)]] [.plain .fadeIn []]]

/-- The first fade is scanned at seven slots, of which two are open, and one of these has been
patched when the second is scanned.  Slot 11 is refused, and to find that it is enough to go on
at slot 7. -/
theorem scans_sufficient_and_local_fading :
    ∃ earlier name fields patched output command args fault,
      nestedScope.looks fadingScript =
        [.scan earlier name fields, .patch patched 3, .scan output command args] ∧
      output.check command args = .error fault ∧ earlier.size = 7 ∧
      earlier.slots[3]? = some .null ∧ output.slots[3]? = some (.int 0) ∧
      output.slots[11]? = some (.int 300) ∧ earlier.check name fields = .ok () ∧
      output.checkFrom 7 command args = .error fault := by
  obtain ⟨_, _, -, -, -, -, hlocal⟩ :=
    (Scope.scans_sufficient_and_local nestedScope fadingScript).2.2.2 [_, _] _ _ _ [] _ rfl rfl
  obtain ⟨hpassed, -, hsame⟩ := hlocal _ _ _ List.mem_cons_self
  exact ⟨_, _, _, _, _, _, _, _, rfl, rfl, rfl, rfl, rfl, rfl, hpassed, hsame⟩

end SceneScript
