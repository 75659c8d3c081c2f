import Mathlib.Data.List.Induction
import SkillEngine.Proofs.FileSystem.Frame
import SkillEngine.Proofs.FileSystem.Path

/-!
# Trees

A list of entries is a tree when everything stands in a directory.  All changes
keep this: they put something only where the walk along a path has just ended.

In a tree the walk along names without steps back can be read off its end.  The
names on the way lead through directories because what they lead to is there.
-/

namespace SkillEngine.FileSystem

variable {files other : FileSystem} {place : Location} {path : String}

/-- What stands anywhere below the root stands in a directory. -/
def Grounded (files : FileSystem) : Prop :=
  ∀ place name entry, files.entry? (place ++ [name]) = some entry →
    files.entry? place = some .directory

/-- Entries of the root stand in a directory. -/
theorem grounded_of_flat
    (hflat : ∀ entry ∈ files.entries, entry.1.length ≤ 1) : files.Grounded := by
  intro place name entry hentry
  rw [entry_of_ne_nil _ (by simp)] at hentry
  obtain ⟨front, rest, hsame, -⟩ := List.lookup_eq_some_iff.mp hentry
  have hlength := hflat (place ++ [name], entry) (by simp [hsame])
  obtain rfl : place = [] := by simpa using hlength
  rfl

theorem Grounded.directory_above (h : files.Grounded) {front : Location}
    (hbegins : front <+: place) (hne : front ≠ place) {entry : Entry}
    (hentry : files.entry? place = some entry) :
    files.entry? front = some .directory := by
  obtain ⟨rest, rfl⟩ := hbegins
  induction rest using List.reverseRecOn generalizing entry with
  | nil => exact absurd (List.append_nil front).symm hne
  | append_singleton rest name ih =>
      rw [← List.append_assoc] at hentry
      have habove := h _ _ _ hentry
      by_cases hlast : front = front ++ rest
      · rwa [← hlast] at habove
      · exact ih hlast habove

theorem Grounded.directory_of_prefix (h : files.Grounded) {front : Location}
    (hbegins : front <+: place)
    (hdirectory : files.entry? place = some .directory) :
    files.entry? front = some .directory := by
  by_cases hne : front = place
  · rwa [hne]
  · exact h.directory_above hbegins hne hdirectory

/-! ## Changes of a tree -/

theorem Grounded.put (h : files.Grounded) {directory : Location} {name : String}
    (hdirectory : files.entry? directory = some .directory)
    (hfree : files.entry? (directory ++ [name]) ≠ some .directory)
    (entry : Entry) :
    (files.put (directory ++ [name]) entry).Grounded := by
  intro above last held hheld
  have hkept : ∀ target, files.entry? target = some .directory →
      FileSystem.entry? (files.put (directory ++ [name]) entry) target =
        some .directory := (KeepsDirectories.put hfree).directories
  by_cases hplace : above ++ [last] = directory ++ [name]
  · obtain ⟨rfl, -⟩ := List.append_inj' hplace rfl
    exact hkept above hdirectory
  · rw [entry_put_of_ne files entry hplace] at hheld
    exact hkept above (h above last held hheld)

theorem Grounded.remove (h : files.Grounded)
    (hfile : files.entry? place ≠ some .directory) :
    (files.remove place).Grounded := by
  intro above last held hheld
  by_cases hplace : above ++ [last] = place
  · have hne : place ≠ [] := by
      rintro rfl
      simp at hplace
    rw [hplace, entry_remove_self hne] at hheld
    simp at hheld
  · rw [entry_remove_of_ne files hplace] at hheld
    exact (KeepsDirectories.remove hfile).directories above
      (h above last held hheld)

theorem directory_of_walk {names : List String} {found : Location}
    (hwalk : files.walk place names = .ok found) :
    files.entry? found = some .directory := by
  induction names generalizing place with
  | nil =>
      obtain ⟨hplace, rfl⟩ := directoryAt_eq_ok_iff.mp hwalk
      exact hplace
  | cons name names ih =>
      rw [FileSystem.walk] at hwalk
      obtain ⟨directory, -, hnext⟩ := bind_eq_ok_iff.mp hwalk
      obtain ⟨next, -, hrest⟩ := bind_eq_ok_iff.mp hnext
      exact ih hrest

/-- Where the walk along a path begins. -/
def start (files : FileSystem) (path : String) : Location :=
  if Path.isRooted path then [] else files.current

theorem enter_eq_ok_iff {found : Location} :
    files.enter path = .ok found ↔ pathFault? path = none ∧
      files.walk (files.start path) (Path.steps path).dropLast = .ok found := by
  rw [FileSystem.enter, start]
  cases pathFault? path <;> simp

theorem directory_of_enter {directory : Location}
    (henter : files.enter path = .ok directory) :
    files.entry? directory = some .directory :=
  directory_of_walk (enter_eq_ok_iff.mp henter).2

/-- A step to a place where no directory stands leads into a directory. -/
theorem Grounded.place_of_step (h : files.Grounded) {directory : Location}
    {name : String} (hdirectory : files.entry? directory = some .directory)
    (hstep : step directory name = .ok place)
    (hfree : files.entry? place ≠ some .directory) :
    place = directory ++ [name] := by
  rw [step] at hstep
  split at hstep
  · obtain rfl := Except.ok.inj hstep
    exact absurd hdirectory hfree
  · split at hstep
    · obtain rfl := Except.ok.inj hstep
      have habove := h.directory_of_prefix (List.dropLast_prefix directory)
        hdirectory
      exact absurd habove hfree
    · split at hstep
      · simp at hstep
      · exact (Except.ok.inj hstep).symm

theorem Grounded.place_of_placeIn (h : files.Grounded) {directory : Location}
    (hdirectory : files.entry? directory = some .directory)
    (hplace : placeIn path directory = .ok place)
    (hfree : files.entry? place ≠ some .directory) :
    ∃ name, (Path.steps path).getLast? = some name ∧
      place = directory ++ [name] := by
  rw [placeIn] at hplace
  split at hplace
  next name hlast =>
    exact ⟨name, hlast, h.place_of_step hdirectory hplace hfree⟩
  next =>
    obtain rfl := Except.ok.inj hplace
    exact absurd hdirectory hfree

theorem Grounded.makeDirectory (h : files.Grounded)
    (hmake : files.makeDirectory path = .ok other) : other.Grounded := by
  rw [FileSystem.makeDirectory] at hmake
  obtain ⟨place, hlocate, hmake⟩ := bind_eq_ok_iff.mp hmake
  obtain ⟨directory, henter, hplace, -⟩ := locate_eq_ok_iff.mp hlocate
  split at hmake
  · simp at hmake
  next hnone =>
    have hfree : files.entry? place ≠ some .directory := by simp [hnone]
    have hdirectory := directory_of_enter henter
    obtain ⟨name, -, rfl⟩ := h.place_of_placeIn hdirectory hplace hfree
    obtain rfl := Except.ok.inj hmake
    exact h.put hdirectory hfree .directory

theorem Grounded.ensureDirectory (h : files.Grounded)
    (hensure : files.ensureDirectory path = .ok other) : other.Grounded := by
  rw [FileSystem.ensureDirectory] at hensure
  split at hensure
  next =>
    split at hensure
    · obtain rfl := Except.ok.inj hensure
      exact h
    · simp at hensure
  next => exact h.makeDirectory hensure

theorem Grounded.makeAll (h : files.Grounded) {rooted : Bool}
    {names : List String} (hmake : files.makeAll rooted names = .ok other) :
    other.Grounded := by
  induction names generalizing other with
  | nil =>
      obtain rfl := Except.ok.inj hmake
      exact h
  | cons name outer ih =>
      simp only [FileSystem.makeAll] at hmake
      split at hmake
      · obtain ⟨made, hmade, hensure⟩ := bind_eq_ok_iff.mp hmake
        exact (ih hmade).ensureDirectory hensure
      · exact h.ensureDirectory hmake

theorem Grounded.put_leadsTo (h : files.Grounded) (hleads : files.LeadsTo path place)
    (hfree : files.entry? place ≠ some .directory) (content : ByteArray) :
    (files.put place (.file content)).Grounded := by
  obtain ⟨directory, name, henter, -, hstep⟩ := hleads.reached
  have hdirectory := directory_of_enter henter
  obtain rfl := h.place_of_step hdirectory hstep hfree
  exact h.put hdirectory hfree (.file content)

theorem Grounded.write (h : files.Grounded) {content : ByteArray}
    (hwrite : files.write path content = .ok other) : other.Grounded := by
  obtain ⟨place, hleads, hfree, rfl⟩ := write_eq_ok_iff.mp hwrite
  exact h.put_leadsTo hleads hfree content

theorem Grounded.rename (h : files.Grounded) {source target : String}
    (hrename : files.rename source target = .ok other) : other.Grounded := by
  obtain ⟨content, old, new, hread, hold, hleads, hfree, rfl⟩ :=
    rename_eq_ok_iff.mp hrename
  obtain ⟨place, hplace, hfile⟩ := file_of_read hread
  obtain rfl : place = old := Except.ok.inj (hplace.symm.trans hold)
  have hmoved : files.entry? place ≠ some .directory := by simp [hfile]
  exact (h.remove hmoved).put_leadsTo (hleads.of_keeps (.remove hmoved))
    (not_directory_remove hfree) content

theorem Grounded.perform (h : files.Grounded) {action : FileAction}
    (hperform : files.perform action = .ok other) : other.Grounded := by
  cases action with
  | makeDirectories path => exact h.makeAll hperform
  | write path content => exact h.write hperform
  | rename source target => exact h.rename hperform

/-! ## Walks without steps back -/

theorem walk_point (names : List String) :
    files.walk place ("." :: names) = files.walk place names := by
  have hstep : step place "." = .ok place := rfl
  rw [FileSystem.walk]
  cases hplace : files.directoryAt place with
  | error fault =>
      cases names with
      | nil => simp [FileSystem.walk, hplace, bind, Except.bind]
      | cons name names => simp [FileSystem.walk, hplace, bind, Except.bind]
  | ok found =>
      obtain ⟨-, rfl⟩ := directoryAt_eq_ok_iff.mp hplace
      rw [ok_bind, hstep, ok_bind]

/-- Single points lead nowhere else. -/
theorem walk_filter (names : List String) :
    files.walk place (names.filter (· != ".")) = files.walk place names := by
  induction names generalizing place with
  | nil => rfl
  | cons name names ih =>
      by_cases hname : name = "."
      · subst hname
        rw [List.filter_cons_of_neg (by simp), walk_point, ih]
      · rw [List.filter_cons_of_pos (by simpa using hname), FileSystem.walk,
          FileSystem.walk]
        simp only [ih]

theorem walk_append {front rest : List String} {found : Location}
    (hwalk : files.walk place (front ++ rest) = .ok found) :
    ∃ middle, files.walk place front = .ok middle ∧
      files.walk middle rest = .ok found := by
  induction front generalizing place with
  | nil =>
      have hplace : files.directoryAt place = .ok place := by
        cases rest with
        | nil =>
            obtain ⟨hentry, -⟩ := directoryAt_eq_ok_iff.mp hwalk
            exact directoryAt_eq_ok_iff.mpr ⟨hentry, rfl⟩
        | cons name rest =>
            rw [List.nil_append, FileSystem.walk] at hwalk
            obtain ⟨directory, hdirectory, -⟩ := bind_eq_ok_iff.mp hwalk
            obtain ⟨hentry, -⟩ := directoryAt_eq_ok_iff.mp hdirectory
            exact directoryAt_eq_ok_iff.mpr ⟨hentry, rfl⟩
      exact ⟨place, hplace, hwalk⟩
  | cons name front ih =>
      rw [List.cons_append, FileSystem.walk] at hwalk
      obtain ⟨directory, hdirectory, hnext⟩ := bind_eq_ok_iff.mp hwalk
      obtain ⟨next, hstep, hrest⟩ := bind_eq_ok_iff.mp hnext
      obtain ⟨middle, hfront, hlast⟩ := ih hrest
      refine ⟨middle, ?_, hlast⟩
      rw [FileSystem.walk, hdirectory, ok_bind, hstep, ok_bind, hfront]

theorem step_of_plain {directory : Location} {name : String}
    (hback : name ≠ "..") (hstep : step directory name = .ok place) :
    place = directory ++ [name].filter (· != ".") := by
  rw [step] at hstep
  split at hstep
  next hpoint =>
    obtain rfl := Except.ok.inj hstep
    simp [hpoint]
  next hpoint =>
    split at hstep
    · simp at hstep
    · obtain rfl := Except.ok.inj hstep
      simp [hpoint]

/-- Names without a step back are the names of the place. -/
theorem walk_of_plain {names : List String} {found : Location}
    (hplain : ".." ∉ names) (hwalk : files.walk place names = .ok found) :
    found = place ++ names.filter (· != ".") := by
  induction names generalizing place with
  | nil =>
      obtain ⟨-, rfl⟩ := directoryAt_eq_ok_iff.mp hwalk
      simp
  | cons name names ih =>
      rw [FileSystem.walk] at hwalk
      obtain ⟨directory, hdirectory, hnext⟩ := bind_eq_ok_iff.mp hwalk
      obtain ⟨next, hstep, hrest⟩ := bind_eq_ok_iff.mp hnext
      obtain ⟨-, rfl⟩ := directoryAt_eq_ok_iff.mp hdirectory
      have hback : name ≠ ".." := by
        rintro rfl
        exact hplain List.mem_cons_self
      rw [ih (fun h => hplain (List.mem_cons_of_mem _ h)) hrest,
        step_of_plain hback hstep, List.append_assoc, ← List.filter_append,
        List.singleton_append]

theorem not_mem_steps_of_parts (hplain : ".." ∉ Path.parts path) :
    ".." ∉ Path.steps path := by
  intro hmem
  apply hplain
  rw [Path.parts_eq_filter_steps]
  exact List.mem_filter.mpr ⟨hmem, by decide⟩

theorem placeIn_of_plain {directory : Location}
    (hplain : ".." ∉ Path.steps path)
    (hplace : placeIn path directory = .ok place) :
    place = directory ++
      (Path.steps path).getLast?.toList.filter (· != ".") := by
  rw [placeIn] at hplace
  split at hplace
  next name hlast =>
    have hback : name ≠ ".." := by
      rintro rfl
      exact hplain (List.mem_of_getLast? hlast)
    rw [step_of_plain hback hplace, hlast]
    rfl
  next hnone =>
    obtain rfl := Except.ok.inj hplace
    simp [hnone]

/-- A path without a step back leads where its parts say. -/
theorem locate_of_plain (hplain : ".." ∉ Path.parts path)
    (hlocate : files.locate path = .ok place) :
    place = files.start path ++ Path.parts path := by
  obtain ⟨directory, henter, hplace, -⟩ := locate_eq_ok_iff.mp hlocate
  obtain ⟨-, hwalk⟩ := enter_eq_ok_iff.mp henter
  have hsteps := not_mem_steps_of_parts hplain
  have hfront : ".." ∉ (Path.steps path).dropLast := fun h =>
    hsteps ((List.dropLast_sublist _).subset h)
  have hjoined : (Path.steps path).dropLast ++
      (Path.steps path).getLast?.toList = Path.steps path := by
    rcases List.eq_nil_or_concat (Path.steps path) with hnil | ⟨front, last, h⟩
    · simp [hnil]
    · simp [h]
  rw [placeIn_of_plain hsteps hplace, walk_of_plain hfront hwalk,
    List.append_assoc, ← List.filter_append, hjoined,
    Path.parts_eq_filter_steps]

/-- In another tree the same walk leads to the same directory, if that is one
there. -/
theorem Grounded.walk (hother : other.Grounded) {names : List String}
    {found : Location} (hplain : ".." ∉ names)
    (hwalk : files.walk place names = .ok found)
    (hfound : other.entry? found = some .directory) :
    other.walk place names = .ok found := by
  have hbegins : place <+: found := by
    rw [walk_of_plain hplain hwalk]
    exact List.prefix_append _ _
  have hplace := hother.directory_of_prefix hbegins hfound
  induction names generalizing place with
  | nil =>
      obtain ⟨-, rfl⟩ := directoryAt_eq_ok_iff.mp hwalk
      exact directoryAt_eq_ok_iff.mpr ⟨hplace, rfl⟩
  | cons name names ih =>
      rw [FileSystem.walk] at hwalk ⊢
      obtain ⟨directory, hdirectory, hnext⟩ := bind_eq_ok_iff.mp hwalk
      obtain ⟨next, hstep, hrest⟩ := bind_eq_ok_iff.mp hnext
      obtain ⟨-, rfl⟩ := directoryAt_eq_ok_iff.mp hdirectory
      have hrestPlain : ".." ∉ names := fun h =>
        hplain (List.mem_cons_of_mem _ h)
      have hnextBegins : next <+: found := by
        rw [walk_of_plain hrestPlain hrest]
        exact List.prefix_append _ _
      rw [directoryAt_eq_ok_iff.mpr ⟨hplace, rfl⟩, ok_bind, hstep, ok_bind]
      exact ih hrestPlain hrest hnextBegins
        (hother.directory_of_prefix hnextBegins hfound)

end SkillEngine.FileSystem
