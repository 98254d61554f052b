import SceneScript.Disk.Basic
import SceneScript.Proofs.Reading

/-!
# What a write changes

A write puts a file at one place.  Everything else stands as it did, but only if the place was
one that a path led to: a directory is on the disk just because it holds something, so a file
put at a place whose directory is missing would bring the directory into being.  Paths lead
through directories, `Rooted` says that of the place they come to, and under it the frame holds.
The path then leads to the place on the new disk as well, and what is read there is what was
written.
-/

namespace SceneScript

namespace Disk

/-! ## Places that a path leads to -/

/-- Whatever encloses the place is there. -/
def Rooted (disk : Disk) (place : Place) : Prop :=
  ∀ outer, outer <+: place → outer ≠ place → disk.entry outer ≠ .missing

/-- Whether a place without a file is a directory. -/
def holds (disk : Disk) (place : Place) : Bool :=
  place.isAbove || disk.directories.any place.isPrefixOf ||
    disk.files.any fun file => place.isPrefixOf file.1

theorem entry_of_lookup_some {disk : Disk} {place : Place} {bytes : List UInt8}
    (h : disk.files.lookup place = some bytes) : disk.entry place = .file bytes := by
  rw [entry, h]

theorem entry_of_lookup_none {disk : Disk} {place : Place} (h : disk.files.lookup place = none) :
    disk.entry place = if disk.holds place then .directory else .missing := by
  rw [entry, h]
  rfl

theorem rooted_start (disk : Disk) (path : String) : disk.Rooted (Place.start path) := by
  intro outer houter hne hmissing
  have hnil : outer = [] := by
    rw [Place.start] at houter hne
    split at houter
    · rename_i hroot
      rw [if_pos hroot] at hne
      rcases List.prefix_cons_iff.mp houter with rfl | ⟨rest, rfl, hrest⟩
      · rfl
      · obtain rfl := List.prefix_nil.mp hrest
        exact absurd rfl hne
    · exact List.prefix_nil.mp houter
  subst hnil
  cases hlookup : disk.files.lookup ([] : Place) with
  | some bytes => rw [entry_of_lookup_some hlookup] at hmissing; cases hmissing
  | none => rw [entry_of_lookup_none hlookup] at hmissing; cases hmissing

/-- A part of a path leads nowhere, into something or out of it. -/
theorem step_cases (place : Place) (part : String) :
    place.step part = place ∨ (∃ name, place.step part = place ++ [name]) ∨
      place.step part = place.dropLast := by
  rw [Place.step]
  split
  · exact .inl rfl
  split
  · split
    · exact .inl rfl
    split
    · exact .inr (.inl ⟨_, rfl⟩)
    · exact .inr (.inr rfl)
  · exact .inr (.inl ⟨_, rfl⟩)

theorem Rooted.concat {disk : Disk} {place : Place} (h : disk.Rooted place)
    (hdirectory : disk.entry place = .directory) (name : String) :
    disk.Rooted (place ++ [name]) := by
  intro outer houter hne
  rcases List.prefix_concat_iff.mp houter with heq | hinside
  · exact absurd heq hne
  by_cases hplace : outer = place
  · subst hplace
    rw [hdirectory]
    exact Entry.noConfusion
  · exact h outer hinside hplace

theorem Rooted.dropLast {disk : Disk} {place : Place} (h : disk.Rooted place) :
    disk.Rooted place.dropLast := by
  intro outer houter hne
  refine h outer (houter.trans (List.dropLast_prefix place)) ?_
  rintro rfl
  exact hne (houter.eq_of_length_le (List.dropLast_prefix outer).length_le)

theorem step_ok {disk : Disk} {path : String} {place next : Place} {part : String}
    (h : disk.step path place part = .ok next) : disk.entry place = .directory ∧
    next = place.step part := by
  rw [step] at h
  split at h
  · cases h
  · cases h
  · rename_i hdirectory
    split at h
    · cases h
    · cases h
      exact ⟨hdirectory, rfl⟩

theorem Rooted.step {disk : Disk} {path : String} {place next : Place} {part : String}
    (h : disk.Rooted place) (hstep : disk.step path place part = .ok next) : disk.Rooted next := by
  obtain ⟨hdirectory, rfl⟩ := step_ok hstep
  rcases step_cases place part with heq | ⟨name, heq⟩ | heq
  · rw [heq]
    exact h
  · rw [heq]
    exact h.concat hdirectory name
  · rw [heq]
    exact h.dropLast

theorem Rooted.steps {disk : Disk} {path : String} {parts : List String} {place last : Place}
    (h : disk.Rooted place) (hsteps : parts.foldlM (disk.step path) place = .ok last) :
    disk.Rooted last := by
  induction parts generalizing place with
  | nil =>
      cases hsteps
      exact h
  | cons part rest ih =>
      rw [List.foldlM_cons] at hsteps
      obtain ⟨next, hstep, hrest⟩ := result_bind_ok.mp hsteps
      exact ih (h.step hstep) hrest

/-! ## Writing -/

theorem lookup_filter_self (files : List (Place × List UInt8)) (place : Place) :
    (files.filter fun file => file.1 != place).lookup place = none := by
  rw [List.lookup_eq_none_iff]
  intro file hfile
  have hne := bne_iff_ne.mp (List.mem_filter.mp hfile).2
  exact bne_iff_ne.mpr hne.symm

theorem lookup_filter_of_ne (files : List (Place × List UInt8)) {place other : Place}
    (h : other ≠ place) :
    (files.filter fun file => file.1 != place).lookup other = files.lookup other := by
  induction files with
  | nil => rfl
  | cons file rest ih =>
      obtain ⟨standing, bytes⟩ := file
      by_cases hplace : standing = place
      · subst hplace
        rw [List.filter_cons_of_neg (by simp), ih, List.lookup_cons, beq_false_of_ne h]
      · rw [List.filter_cons_of_pos (by simpa using hplace), List.lookup_cons, List.lookup_cons, ih]

/-- What was written stands at its place. -/
theorem entry_write (disk : Disk) (place : Place) (bytes : List UInt8) :
    (disk.write place bytes).entry place = .file bytes := by
  refine entry_of_lookup_some ?_
  rw [write, List.lookup_append, lookup_filter_self]
  exact List.lookup_cons_self

/-- A place that does not enclose the one that is written to holds what it held. -/
theorem holds_write_of_outside {disk : Disk} {place other : Place}
    (h : other.isPrefixOf place = false) (bytes : List UInt8) :
    (disk.write place bytes).holds other = disk.holds other := by
  have hfiles : ∀ file : Place × List UInt8,
      (file.1 != place && other.isPrefixOf file.1) = other.isPrefixOf file.1 := by
    intro file
    by_cases hplace : file.1 = place
    · rw [hplace, h, Bool.and_false]
    · rw [bne_iff_ne.mpr hplace, Bool.true_and]
  simp only [holds, write, List.any_append, List.any_filter, List.any_cons, List.any_nil, hfiles, h,
    Bool.or_false]

theorem holds_write_of_inside {disk : Disk} {place other : Place}
    (h : other.isPrefixOf place = true) (bytes : List UInt8) :
    (disk.write place bytes).holds other = true := by
  simp only [holds, write, List.any_append, List.any_cons, h, Bool.true_or, Bool.or_true]

/-- Everything else stands as it did. -/
theorem entry_write_of_ne {disk : Disk} {place other : Place} (hrooted : disk.Rooted place)
    (h : other ≠ place) (bytes : List UInt8) :
    (disk.write place bytes).entry other = disk.entry other := by
  have hlookup : (disk.write place bytes).files.lookup other = disk.files.lookup other := by
    rw [write, List.lookup_append, lookup_filter_of_ne _ h, List.lookup_cons, beq_false_of_ne h]
    exact Option.or_none
  cases hother : disk.files.lookup other with
  | some found => rw [entry_of_lookup_some hother, entry_of_lookup_some (hlookup.trans hother)]
  | none =>
      rw [entry_of_lookup_none (hlookup.trans hother), entry_of_lookup_none hother]
      cases hinside : other.isPrefixOf place with
      | false => rw [holds_write_of_outside hinside]
      | true =>
          -- the place is inside the other, which was there before
          have hthere := hrooted other (List.isPrefixOf_iff_prefix.mp hinside) h
          rw [entry_of_lookup_none hother] at hthere
          rw [holds_write_of_inside hinside]
          split at hthere
          · rename_i hholds
            rw [if_pos rfl, if_pos hholds]
          · exact absurd rfl hthere

/-! ## Reading back -/

/-- What opening a path for writing asks for. -/
theorem placeForWriting_ok {disk : Disk} {path : String} {place : Place}
    (h : disk.placeForWriting path = .ok place) :
    usablePath path = .ok () ∧ disk.walk path (Path.parts path) = .ok place ∧
      disk.entry place ≠ .directory := by
  obtain ⟨⟨⟩, husable, h⟩ := result_bind_ok.mp h
  split at h
  · obtain ⟨_, -, h⟩ := result_bind_ok.mp h
    cases h
  obtain ⟨found, hwalk, h⟩ := result_bind_ok.mp h
  split at h
  · cases h
  all_goals
    rename_i hentry
    cases h
    refine ⟨husable, hwalk, ?_⟩
    rw [hentry]
    exact Entry.noConfusion

theorem rooted_of_placeForWriting {disk : Disk} {path : String} {place : Place}
    (h : disk.placeForWriting path = .ok place) : disk.Rooted place :=
  (disk.rooted_start path).steps (placeForWriting_ok h).2.1

/-- A path that leads through directories leads to the same place when something else is written. -/
theorem steps_write {disk : Disk} {place : Place} (hrooted : disk.Rooted place)
    (hplace : disk.entry place ≠ .directory) (bytes : List UInt8) {path : String}
    {parts : List String} {first last : Place}
    (h : parts.foldlM (disk.step path) first = .ok last) :
    parts.foldlM ((disk.write place bytes).step path) first = .ok last := by
  induction parts generalizing first with
  | nil => exact h
  | cons part rest ih =>
      rw [List.foldlM_cons] at h ⊢
      obtain ⟨next, hstep, hrest⟩ := result_bind_ok.mp h
      have hne : first ≠ place := by
        rintro rfl
        exact hplace (step_ok hstep).1
      have hsame : (disk.write place bytes).step path first part = .ok next := by
        rw [step, entry_write_of_ne hrooted hne, ← step]
        exact hstep
      exact result_bind_ok.mpr ⟨next, hsame, ih hrest⟩

/-- What is written at the place of a path is read at the path. -/
theorem read_write {disk : Disk} {path : String} {place : Place}
    (h : disk.placeForWriting path = .ok place) (bytes : List UInt8) :
    (disk.write place bytes).read path = .ok bytes := by
  obtain ⟨husable, hwalk, hplace⟩ := placeForWriting_ok h
  have hwalk' : (disk.write place bytes).walk path (Path.parts path) = .ok place :=
    steps_write (rooted_of_placeForWriting h) hplace bytes hwalk
  refine result_bind_ok.mpr ⟨(), husable, result_bind_ok.mpr ⟨place, hwalk', ?_⟩⟩
  rw [entry_write]
  rfl

end Disk

end SceneScript
