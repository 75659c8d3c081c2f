import SkillEngine.FileSystem.Basic
import SkillEngine.Proofs.Outcome

/-!
# Files that are written and moved

A path leads to the same place as long as the directories on the way to it
stay.  Writing a file and moving it keep every directory, so what is written
is read again under the same path, and what is moved under the new one.
-/

namespace SkillEngine

theorem fromUTF8?_toUTF8 (text : String) :
    String.fromUTF8? text.toUTF8 = some text := by
  have hvalid : text.toUTF8.IsValidUTF8 := text.isValidUTF8
  rw [String.fromUTF8?, dif_pos hvalid]
  rfl

namespace FileSystem

variable {files other : FileSystem} {place : Location}

/-! ## What stands at a place after a change -/

theorem entry_of_ne_nil (files : FileSystem) (h : place ≠ []) :
    files.entry? place = files.entries.lookup place := by
  unfold FileSystem.entry?
  simp [h]

theorem lookup_filter_ne {entries : List (Location × Entry)}
    {place target : Location} (h : target ≠ place) :
    (entries.filter (·.1 != place)).lookup target = entries.lookup target := by
  induction entries with
  | nil => rfl
  | cons entry entries ih =>
      obtain ⟨stands, held⟩ := entry
      by_cases hplace : stands = place
      · subst hplace
        rw [List.filter_cons_of_neg (by simp), List.lookup_cons,
          beq_eq_false_iff_ne.mpr h]
        exact ih
      · rw [List.filter_cons_of_pos (by simpa using hplace), List.lookup_cons,
          List.lookup_cons, ih]

theorem entry_put_self (files : FileSystem) (entry : Entry) (h : place ≠ []) :
    FileSystem.entry? (files.put place entry) place = some entry := by
  rw [entry_of_ne_nil _ h, put, List.lookup_cons_self]

theorem entry_put_of_ne {target : Location} (files : FileSystem)
    (entry : Entry) (h : target ≠ place) :
    FileSystem.entry? (files.put place entry) target = files.entry? target := by
  cases target with
  | nil => rfl
  | cons name names =>
      rw [entry_of_ne_nil _ (List.cons_ne_nil name names),
        entry_of_ne_nil _ (List.cons_ne_nil name names), put, List.lookup_cons,
        beq_eq_false_iff_ne.mpr h]
      exact lookup_filter_ne h

theorem entry_remove_of_ne {target : Location} (files : FileSystem)
    (h : target ≠ place) :
    FileSystem.entry? (files.remove place) target = files.entry? target := by
  cases target with
  | nil => rfl
  | cons name names =>
      rw [entry_of_ne_nil _ (List.cons_ne_nil name names),
        entry_of_ne_nil _ (List.cons_ne_nil name names), remove]
      exact lookup_filter_ne h

/-! ## Changes that keep directories -/

/-- Every directory stays, and paths start at the same place. -/
structure KeepsDirectories (files other : FileSystem) : Prop where
  current : other.current = files.current
  directories : ∀ place, files.entry? place = some .directory →
    other.entry? place = some .directory

theorem KeepsDirectories.put {entry : Entry}
    (h : files.entry? place ≠ some .directory) :
    KeepsDirectories files (files.put place entry) where
  current := rfl
  directories := by
    intro target hdirectory
    have hne : target ≠ place := by
      rintro rfl
      exact h hdirectory
    rw [entry_put_of_ne files entry hne, hdirectory]

theorem KeepsDirectories.remove (h : files.entry? place ≠ some .directory) :
    KeepsDirectories files (files.remove place) where
  current := rfl
  directories := by
    intro target hdirectory
    have hne : target ≠ place := by
      rintro rfl
      exact h hdirectory
    rw [entry_remove_of_ne files hne, hdirectory]

theorem directoryAt_eq_ok_iff {found : Location} :
    files.directoryAt place = .ok found ↔
      files.entry? place = some .directory ∧ found = place := by
  rw [directoryAt]
  split
  next h => simp [h]
  next h => simp [h]
  next h => simp [h, eq_comm]

theorem KeepsDirectories.walk (hkeeps : KeepsDirectories files other)
    {names : List String} {found : Location}
    (hwalk : files.walk place names = .ok found) :
    other.walk place names = .ok found := by
  induction names generalizing place with
  | nil =>
      rw [FileSystem.walk, directoryAt_eq_ok_iff] at hwalk ⊢
      exact ⟨hkeeps.directories place hwalk.1, hwalk.2⟩
  | cons name names ih =>
      rw [FileSystem.walk] at hwalk ⊢
      obtain ⟨directory, hdirectory, hnext⟩ := bind_eq_ok_iff.mp hwalk
      obtain ⟨next, hstep, hrest⟩ := bind_eq_ok_iff.mp hnext
      obtain ⟨hstands, rfl⟩ := directoryAt_eq_ok_iff.mp hdirectory
      have hother : other.directoryAt directory = .ok directory :=
        directoryAt_eq_ok_iff.mpr ⟨hkeeps.directories directory hstands, rfl⟩
      refine bind_eq_ok_iff.mpr ⟨directory, hother, ?_⟩
      exact bind_eq_ok_iff.mpr ⟨next, hstep, ih hrest⟩

theorem KeepsDirectories.enter (hkeeps : KeepsDirectories files other)
    {path : String} {found : Location} (henter : files.enter path = .ok found) :
    other.enter path = .ok found := by
  rw [FileSystem.enter] at henter ⊢
  cases hfault : pathFault? path with
  | some fault => simp [hfault] at henter
  | none =>
      simp only [hfault] at henter ⊢
      rw [hkeeps.current]
      exact hkeeps.walk henter

/-! ## The place of a file -/

/-- The path is that of a file at a place: its directory stands, and the last
name is no step back and has no slash behind it. -/
structure LeadsTo (files : FileSystem) (path : String) (place : Location) :
    Prop where
  reached : ∃ directory name, files.enter path = .ok directory ∧
    Path.entryName? path = some name ∧ step directory name = .ok place
  plain : Path.endsInSlash path = false

theorem LeadsTo.of_keeps {path : String} (h : files.LeadsTo path place)
    (hkeeps : KeepsDirectories files other) : other.LeadsTo path place := by
  obtain ⟨⟨directory, name, henter, hname, hstep⟩, hplain⟩ := h
  exact ⟨⟨directory, name, hkeeps.enter henter, hname, hstep⟩, hplain⟩

theorem LeadsTo.locate {path : String} (h : files.LeadsTo path place) :
    files.locate path = .ok place := by
  obtain ⟨⟨directory, name, henter, hname, hstep⟩, hplain⟩ := h
  have hlast : (Path.steps path).getLast? = some name :=
    (Option.filter_eq_some_iff.mp hname).1
  simp [FileSystem.locate, henter, hlast, hstep, hplain, bind, Except.bind]

theorem LeadsTo.exists {path : String} (h : files.LeadsTo path place)
    {content : ByteArray} (hfile : files.entry? place = some (.file content)) :
    files.exists? path = true := by
  simp [FileSystem.exists?, h.locate, hfile]

theorem LeadsTo.read {path : String} (h : files.LeadsTo path place)
    {content : ByteArray} (hfile : files.entry? place = some (.file content)) :
    files.read path = .ok content := by
  simp [FileSystem.read, h.locate, hfile, bind, Except.bind]

theorem ne_nil_of_not_directory (h : files.entry? place ≠ some .directory) :
    place ≠ [] := by
  rintro rfl
  exact h rfl

/-- A file that is put where a path leads stands there. -/
theorem LeadsTo.put {path : String} (h : files.LeadsTo path place)
    (hfree : files.entry? place ≠ some .directory) (content : ByteArray) :
    (files.put place (.file content)).LeadsTo path place ∧
      FileSystem.entry? (files.put place (.file content)) place =
        some (.file content) :=
  ⟨h.of_keeps (.put hfree),
    entry_put_self files _ (ne_nil_of_not_directory hfree)⟩

/-- A file is written where its path leads, if no directory stands there. -/
theorem write_eq_ok_iff {path : String} {content : ByteArray} : files.write path content = .ok other ↔
    ∃ place, files.LeadsTo path place ∧
      files.entry? place ≠ some .directory ∧
      other = files.put place (.file content) := by
  rw [FileSystem.write]
  constructor
  · intro hwrite
    obtain ⟨directory, henter, hwrite⟩ := bind_eq_ok_iff.mp hwrite
    split at hwrite
    next name hname hplain =>
      obtain ⟨place, hstep, hwrite⟩ := bind_eq_ok_iff.mp hwrite
      split at hwrite
      · simp at hwrite
      next hfree =>
        exact ⟨place, ⟨⟨directory, name, henter, hname, hstep⟩, hplain⟩, hfree,
          (Except.ok.inj hwrite).symm⟩
    next => simp at hwrite
  · rintro ⟨place, ⟨⟨directory, name, henter, hname, hstep⟩, hplain⟩, hfree,
      rfl⟩
    rw [henter, ok_bind]
    simp only [hname, hplain, hstep, ok_bind]

/-- A file that is written stands where its path leads. -/
theorem leadsTo_of_write {path : String} {content : ByteArray}
    (hwrite : files.write path content = .ok other) :
    ∃ place, other.LeadsTo path place ∧
      other.entry? place = some (.file content) := by
  obtain ⟨place, hleads, hfree, rfl⟩ := write_eq_ok_iff.mp hwrite
  exact ⟨place, hleads.put hfree content⟩

theorem entry_remove_self (h : place ≠ []) :
    FileSystem.entry? (files.remove place) place = none := by
  rw [entry_of_ne_nil _ h, remove, List.lookup_eq_none_iff]
  intro entry hentry
  have hne : entry.1 ≠ place := by simpa using (List.mem_filter.mp hentry).2
  exact bne_iff_ne.mpr hne.symm

theorem not_directory_remove {target : Location}
    (h : files.entry? target ≠ some .directory) :
    FileSystem.entry? (files.remove place) target ≠ some .directory := by
  by_cases hplace : target = place
  · subst hplace
    rw [entry_remove_self (ne_nil_of_not_directory h)]
    simp
  · rwa [entry_remove_of_ne files hplace]

/-- A file that can be read stands where its path leads. -/
theorem file_of_read {path : String} {content : ByteArray}
    (hread : files.read path = .ok content) :
    ∃ place, files.locate path = .ok place ∧
      files.entry? place = some (.file content) := by
  rw [FileSystem.read] at hread
  obtain ⟨place, hlocate, hread⟩ := bind_eq_ok_iff.mp hread
  split at hread
  next hfile =>
    obtain rfl := Except.ok.inj hread
    exact ⟨place, hlocate, hfile⟩
  all_goals simp at hread

/-- A file is moved where its new path leads, if no directory stands there. -/
theorem rename_eq_ok_iff {source target : String} :
    files.rename source target = .ok other ↔
      ∃ content old new, files.read source = .ok content ∧
        files.locate source = .ok old ∧ files.LeadsTo target new ∧
        files.entry? new ≠ some .directory ∧
        other = (files.remove old).put new (.file content) := by
  rw [FileSystem.rename]
  constructor
  · intro hrename
    obtain ⟨content, hread, hrename⟩ := bind_eq_ok_iff.mp hrename
    obtain ⟨old, hold, hrename⟩ := bind_eq_ok_iff.mp hrename
    obtain ⟨directory, henter, hrename⟩ := bind_eq_ok_iff.mp hrename
    split at hrename
    · simp at hrename
    next name hname =>
      obtain ⟨new, hstep, hrename⟩ := bind_eq_ok_iff.mp hrename
      split at hrename
      · simp at hrename
      · simp at hrename
      next hplain hfree =>
        exact ⟨content, old, new, hread, hold,
          ⟨⟨directory, name, henter, hname, hstep⟩, hplain⟩, hfree,
          (Except.ok.inj hrename).symm⟩
  · rintro ⟨content, old, new, hread, hold,
      ⟨⟨directory, name, henter, hname, hstep⟩, hplain⟩, hfree, rfl⟩
    rw [hread, ok_bind, hold, ok_bind, henter, ok_bind]
    simp only [hname, hplain, hstep, ok_bind]

/-- A file that is moved stands where its new path leads. -/
theorem leadsTo_of_rename {source target : String} {content : ByteArray}
    (hread : files.read source = .ok content)
    (hrename : files.rename source target = .ok other) :
    ∃ place, other.LeadsTo target place ∧
      other.entry? place = some (.file content) := by
  obtain ⟨moved, old, new, hmoved, hold, hleads, hfree, rfl⟩ :=
    rename_eq_ok_iff.mp hrename
  obtain rfl : moved = content := Except.ok.inj (hmoved.symm.trans hread)
  obtain ⟨place, hlocate, hfile⟩ := file_of_read hread
  obtain rfl : place = old := Except.ok.inj (hlocate.symm.trans hold)
  have hkeeps : KeepsDirectories files (files.remove place) :=
    .remove (by simp [hfile])
  exact ⟨new, (hleads.of_keeps hkeeps).put (not_directory_remove hfree) moved⟩

end FileSystem

end SkillEngine
