import SkillEngine.Proofs.FileSystem.Basic

/-!
# Files that stay

A file that can be read stays readable under its path while directories are
made and other files are written.  Two paths may lead to one file, so what is
read after a file was written under any path is the old content or the new one.
-/

namespace SkillEngine.FileSystem

variable {files other : FileSystem} {place : Location} {path : String}
  {content : ByteArray}

/-! ## The path of a file that can be read -/

/-- The place that a path leads to in the directory in which its walk ends. -/
def placeIn (path : String) (directory : Location) :
    Except FileFault Location :=
  match (Path.steps path).getLast? with
  | some name => step directory name
  | none => .ok directory

/-- The place itself, unless a file stands there and the path ends in a
slash. -/
def arrive (files : FileSystem) (path : String) (place : Location) :
    Except FileFault Location :=
  match Path.endsInSlash path, files.entry? place with
  | true, some (.file _) => .error .notDirectory
  | _, _ => .ok place

theorem arrive_eq_ok_iff {found : Location} :
    files.arrive path found = .ok place ↔ found = place ∧
      (Path.endsInSlash path = true →
        ∀ content, files.entry? place ≠ some (.file content)) := by
  rw [arrive]
  split
  next content hslash hfile =>
    simp only [reduceCtorEq, false_iff]
    rintro ⟨rfl, hnone⟩
    exact hnone hslash content hfile
  next hother =>
    constructor
    · intro heq
      obtain rfl := Except.ok.inj heq
      exact ⟨rfl, fun hslash content hfile => hother content hslash hfile⟩
    · rintro ⟨rfl, -⟩
      rfl

/-- A path is walked to its last step, then the step is made. -/
theorem locate_eq (files : FileSystem) (path : String) :
    files.locate path = files.enter path >>= fun directory =>
      placeIn path directory >>= files.arrive path := by
  rw [FileSystem.locate]
  refine bind_congr fun directory => ?_
  rw [placeIn]
  cases (Path.steps path).getLast? <;> rfl

theorem locate_eq_ok_iff : files.locate path = .ok place ↔
    ∃ directory, files.enter path = .ok directory ∧
      placeIn path directory = .ok place ∧
      (Path.endsInSlash path = true →
        ∀ content, files.entry? place ≠ some (.file content)) := by
  simp only [locate_eq, bind_eq_ok_iff, arrive_eq_ok_iff]
  refine exists_congr fun directory => and_congr_right fun _ => ?_
  constructor
  · rintro ⟨found, hplace, rfl, hslash⟩
    exact ⟨hplace, hslash⟩
  · rintro ⟨hplace, hslash⟩
    exact ⟨place, hplace, rfl, hslash⟩

/-- The path of a file has no slash behind its name. -/
theorem plain_of_read (hread : files.read path = .ok content) :
    Path.endsInSlash path = false := by
  obtain ⟨place, hlocate, hfile⟩ := file_of_read hread
  obtain ⟨directory, -, -, hslash⟩ := locate_eq_ok_iff.mp hlocate
  rw [Bool.eq_false_iff]
  exact fun hends => hslash hends content hfile

theorem KeepsDirectories.trans {last : FileSystem}
    (h : KeepsDirectories files other) (hlast : KeepsDirectories other last) :
    KeepsDirectories files last :=
  ⟨hlast.current.trans h.current, fun place hplace =>
    hlast.directories place (h.directories place hplace)⟩

/-- A path leads to the same place as long as the directories stay. -/
theorem KeepsDirectories.locate (hkeeps : KeepsDirectories files other)
    (hplain : Path.endsInSlash path = false)
    (hlocate : files.locate path = .ok place) :
    other.locate path = .ok place := by
  obtain ⟨directory, henter, hplace, -⟩ := locate_eq_ok_iff.mp hlocate
  refine locate_eq_ok_iff.mpr ⟨directory, hkeeps.enter henter, hplace, ?_⟩
  simp [hplain]

theorem read_of_locate (hlocate : files.locate path = .ok place)
    (hfile : files.entry? place = some (.file content)) :
    files.read path = .ok content := by
  rw [FileSystem.read, hlocate, ok_bind, hfile]

/-! ## Making directories -/

/-- Everything stays, and something may have been added. -/
structure Extends (files other : FileSystem) : Prop where
  current : other.current = files.current
  entries : ∀ place entry, files.entry? place = some entry →
    other.entry? place = some entry

theorem extends_refl (files : FileSystem) : Extends files files :=
  ⟨rfl, fun _ _ h => h⟩

theorem Extends.trans {last : FileSystem} (h : Extends files other)
    (hlast : Extends other last) : Extends files last :=
  ⟨hlast.current.trans h.current,
    fun place entry hentry => hlast.entries place entry
      (h.entries place entry hentry)⟩

theorem Extends.keeps (h : Extends files other) : KeepsDirectories files other :=
  ⟨h.current, fun place => h.entries place .directory⟩

theorem Extends.read (h : Extends files other)
    (hread : files.read path = .ok content) :
    other.read path = .ok content := by
  obtain ⟨place, hlocate, hfile⟩ := file_of_read hread
  exact read_of_locate (h.keeps.locate (plain_of_read hread) hlocate)
    (h.entries place _ hfile)

theorem extends_makeDirectory
    (hmake : files.makeDirectory path = .ok other) : Extends files other := by
  rw [makeDirectory] at hmake
  obtain ⟨place, -, hmake⟩ := bind_eq_ok_iff.mp hmake
  split at hmake
  · simp at hmake
  next hfree =>
    obtain rfl := Except.ok.inj hmake
    refine ⟨rfl, fun target entry hentry => ?_⟩
    have hne : target ≠ place := by
      rintro rfl
      simp [hfree] at hentry
    rw [entry_put_of_ne files _ hne, hentry]

theorem extends_ensureDirectory
    (hensure : files.ensureDirectory path = .ok other) :
    Extends files other := by
  rw [ensureDirectory] at hensure
  split at hensure
  next =>
    split at hensure
    · obtain rfl := Except.ok.inj hensure
      exact extends_refl files
    · simp at hensure
  next => exact extends_makeDirectory hensure

theorem extends_makeAll {rooted : Bool} {names : List String}
    (hmake : files.makeAll rooted names = .ok other) : Extends files other := by
  induction names generalizing other with
  | nil =>
      obtain rfl := Except.ok.inj hmake
      exact extends_refl files
  | cons name outer ih =>
      simp only [makeAll] at hmake
      split at hmake
      · obtain ⟨made, hmade, hensure⟩ := bind_eq_ok_iff.mp hmake
        exact (ih hmade).trans (extends_ensureDirectory hensure)
      · exact extends_ensureDirectory hmake

theorem extends_makeDirectories {directory : String}
    (hmake : files.makeDirectories directory = .ok other) :
    Extends files other :=
  extends_makeAll hmake

/-- As far as directories can be made, all on the way to one of them are. -/
theorem exists_makeAll_makeSome (files : FileSystem) (rooted : Bool)
    (names : List String) :
    ∃ outer, outer <:+ names ∧
      files.makeAll rooted outer = .ok (files.makeSome rooted names) := by
  induction names with
  | nil => exact ⟨[], List.suffix_rfl, rfl⟩
  | cons name names ih =>
      rw [makeSome]
      split
      next hmade => exact ⟨name :: names, List.suffix_rfl, hmade⟩
      next =>
        obtain ⟨outer, houter, hmade⟩ := ih
        exact ⟨outer, houter.trans (List.suffix_cons name names), hmade⟩
      next => exact ⟨[], List.nil_suffix, rfl⟩

theorem extends_leftBy (files : FileSystem) (action : FileAction) :
    Extends files (files.leftBy action) := by
  cases action with
  | makeDirectories directory =>
      obtain ⟨outer, -, hmade⟩ := exists_makeAll_makeSome files
        (Path.isRooted directory) (Path.parts directory).reverse
      exact extends_makeAll hmade
  | write path content => exact extends_refl files
  | rename source target => exact extends_refl files

/-! ## Making directories again -/

theorem isDirectory_iff : files.isDirectory path = true ↔
    ∃ place, files.locate path = .ok place ∧
      files.entry? place = some .directory := by
  rw [isDirectory]
  cases hlocate : files.locate path with
  | error fault => simp
  | ok place =>
      cases hentry : files.entry? place with
      | none => simp [hentry]
      | some entry => cases entry <;> simp [hentry]

theorem KeepsDirectories.isDirectory (hkeeps : KeepsDirectories files other)
    (h : files.isDirectory path = true) : other.isDirectory path = true := by
  obtain ⟨place, hlocate, hentry⟩ := isDirectory_iff.mp h
  obtain ⟨directory, henter, hplace, -⟩ := locate_eq_ok_iff.mp hlocate
  have hother := hkeeps.directories place hentry
  refine isDirectory_iff.mpr ⟨place, locate_eq_ok_iff.mpr
    ⟨directory, hkeeps.enter henter, hplace, fun _ content => ?_⟩, hother⟩
  simp [hother]

theorem ensureDirectory_of_isDirectory (h : files.isDirectory path = true) :
    files.ensureDirectory path = .ok files := by
  obtain ⟨place, hlocate, hentry⟩ := isDirectory_iff.mp h
  have hmake : files.makeDirectory path = .error .exists := by
    rw [makeDirectory, hlocate, ok_bind, hentry]
  rw [ensureDirectory, hmake]
  simp [h]

theorem isDirectory_of_ensureDirectory
    (hensure : files.ensureDirectory path = .ok other) :
    other.isDirectory path = true := by
  rw [ensureDirectory] at hensure
  split at hensure
  next =>
    split at hensure
    next hdirectory =>
      obtain rfl := Except.ok.inj hensure
      exact hdirectory
    next => simp at hensure
  next =>
    rw [makeDirectory] at hensure
    obtain ⟨place, hlocate, hmake⟩ := bind_eq_ok_iff.mp hensure
    split at hmake
    next => simp at hmake
    next hfree =>
      obtain rfl := Except.ok.inj hmake
      obtain ⟨directory, henter, hplace, -⟩ := locate_eq_ok_iff.mp hlocate
      have hnone : files.entry? place ≠ some .directory := by simp [hfree]
      have hmade := entry_put_self files .directory
        (ne_nil_of_not_directory hnone)
      have hkeeps : KeepsDirectories files (files.put place .directory) :=
        .put hnone
      refine isDirectory_iff.mpr ⟨place, locate_eq_ok_iff.mpr
        ⟨directory, hkeeps.enter henter, hplace, fun _ content => ?_⟩, hmade⟩
      simp [hmade]

/-- Directories that were made need not be made again. -/
theorem makeDirectories_again {later : FileSystem} {directory : String}
    (hmake : files.makeDirectories directory = .ok other)
    (hkeeps : KeepsDirectories other later) :
    later.makeDirectories directory = .ok later := by
  rw [makeDirectories] at hmake ⊢
  cases hparts : (Path.parts directory).reverse with
  | nil => rfl
  | cons name outer =>
      rw [hparts] at hmake
      have hthere : ∀ path, other.isDirectory path = true →
          later.ensureDirectory path = .ok later := fun path hpath =>
        ensureDirectory_of_isDirectory (hkeeps.isDirectory hpath)
      simp only [makeAll] at hmake ⊢
      split at hmake
      · obtain ⟨made, -, hensure⟩ := bind_eq_ok_iff.mp hmake
        rw [hthere _ (isDirectory_of_ensureDirectory hensure)]
      · rw [hthere _ (isDirectory_of_ensureDirectory hmake)]

/-! ## Writing and moving files -/

/-- Where a file is written, the path of a file that could be read leads to its
old content or to what was written. -/
theorem read_of_write {target : String} {written : ByteArray}
    (hread : files.read path = .ok content)
    (hwrite : files.write target written = .ok other) :
    other.read path = .ok content ∨ other.read path = .ok written := by
  obtain ⟨place, hlocate, hfile⟩ := file_of_read hread
  obtain ⟨new, -, hfree, rfl⟩ := write_eq_ok_iff.mp hwrite
  have hkeeps : KeepsDirectories files (files.put new (.file written)) :=
    .put hfree
  have hleads := hkeeps.locate (plain_of_read hread) hlocate
  by_cases hplace : place = new
  · subst hplace
    exact .inr (read_of_locate hleads
      (entry_put_self files _ (ne_nil_of_not_directory hfree)))
  · refine .inl (read_of_locate hleads ?_)
    rw [entry_put_of_ne files _ hplace, hfile]

/-- A file that was written is read under its path. -/
theorem read_written (hwrite : files.write path content = .ok other) :
    other.read path = .ok content := by
  obtain ⟨place, hleads, hfile⟩ := leadsTo_of_write hwrite
  exact hleads.read hfile

/-- A file that was moved is read under its new path. -/
theorem read_renamed {source target : String}
    (hread : files.read source = .ok content)
    (hrename : files.rename source target = .ok other) :
    other.read target = .ok content := by
  obtain ⟨place, hleads, hfile⟩ := leadsTo_of_rename hread hrename
  exact hleads.read hfile

/-! ## Paths that stay free for files -/

/-- A file can be written or moved to the path. -/
def Accepts (files : FileSystem) (path : String) : Prop :=
  ∃ place, files.LeadsTo path place ∧ files.entry? place ≠ some .directory

theorem accepts_of_write (hwrite : files.write path content = .ok other) :
    files.Accepts path := by
  obtain ⟨place, hleads, hfree, -⟩ := write_eq_ok_iff.mp hwrite
  exact ⟨place, hleads, hfree⟩

theorem Accepts.exists_write (h : files.Accepts path) (content : ByteArray) :
    ∃ other, files.write path content = .ok other := by
  obtain ⟨place, hleads, hfree⟩ := h
  exact ⟨_, write_eq_ok_iff.mpr ⟨place, hleads, hfree, rfl⟩⟩

theorem accepts_of_rename {source : String}
    (hrename : files.rename source path = .ok other) : files.Accepts path := by
  obtain ⟨content, old, new, -, -, hleads, hfree, -⟩ :=
    rename_eq_ok_iff.mp hrename
  exact ⟨new, hleads, hfree⟩

theorem Accepts.exists_rename {source : String} (h : files.Accepts path)
    (hread : files.read source = .ok content) :
    ∃ other, files.rename source path = .ok other := by
  obtain ⟨place, hleads, hfree⟩ := h
  obtain ⟨old, hold, -⟩ := file_of_read hread
  exact ⟨_, rename_eq_ok_iff.mpr
    ⟨content, old, place, hread, hold, hleads, hfree, rfl⟩⟩

theorem Accepts.put (h : files.Accepts path)
    (hfree : files.entry? place ≠ some .directory) (content : ByteArray) :
    (files.put place (.file content)).Accepts path := by
  obtain ⟨target, hleads, htarget⟩ := h
  refine ⟨target, hleads.of_keeps (.put hfree), ?_⟩
  by_cases hplace : target = place
  · subst hplace
    rw [entry_put_self files _ (ne_nil_of_not_directory hfree)]
    simp
  · rwa [entry_put_of_ne files _ hplace]

theorem Accepts.remove (h : files.Accepts path)
    (hfree : files.entry? place ≠ some .directory) :
    (files.remove place).Accepts path := by
  obtain ⟨target, hleads, htarget⟩ := h
  exact ⟨target, hleads.of_keeps (.remove hfree), not_directory_remove htarget⟩

/-- Writing a file keeps every path free. -/
theorem Accepts.write {target : String} (h : files.Accepts path)
    (hwrite : files.write target content = .ok other) : other.Accepts path := by
  obtain ⟨place, -, hfree, rfl⟩ := write_eq_ok_iff.mp hwrite
  exact h.put hfree content

theorem keeps_of_write (hwrite : files.write path content = .ok other) :
    KeepsDirectories files other := by
  obtain ⟨place, -, hfree, rfl⟩ := write_eq_ok_iff.mp hwrite
  exact .put hfree

/-- Moving a file takes it away and puts it where no directory stands. -/
theorem rename_steps {source target : String}
    (hrename : files.rename source target = .ok other) :
    ∃ content old new, files.entry? old ≠ some .directory ∧
      FileSystem.entry? (files.remove old) new ≠ some .directory ∧
      other = (files.remove old).put new (.file content) := by
  obtain ⟨content, old, new, hread, hold, -, hfree, hother⟩ :=
    rename_eq_ok_iff.mp hrename
  obtain ⟨place, hplace, hfile⟩ := file_of_read hread
  obtain rfl := Except.ok.inj (hplace.symm.trans hold)
  exact ⟨content, place, new, by simp [hfile], not_directory_remove hfree,
    hother⟩

/-- Moving a file keeps every path free. -/
theorem Accepts.rename {source target : String} (h : files.Accepts path)
    (hrename : files.rename source target = .ok other) :
    other.Accepts path := by
  obtain ⟨content, old, new, hold, hnew, rfl⟩ := rename_steps hrename
  exact (h.remove hold).put hnew content

theorem keeps_of_rename {source target : String}
    (hrename : files.rename source target = .ok other) :
    KeepsDirectories files other := by
  obtain ⟨content, old, new, hold, hnew, rfl⟩ := rename_steps hrename
  exact (KeepsDirectories.remove hold).trans (.put hnew)

theorem keeps_of_perform {action : FileAction}
    (hperform : files.perform action = .ok other) :
    KeepsDirectories files other := by
  cases action with
  | makeDirectories path => exact (extends_makeDirectories hperform).keeps
  | write path content => exact keeps_of_write hperform
  | rename source target => exact keeps_of_rename hperform

end SkillEngine.FileSystem
