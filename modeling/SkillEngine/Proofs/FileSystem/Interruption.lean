import SkillEngine.Proofs.FileSystem.Tree

/-!
# Actions that are broken off

An action on files can stop at any moment: some of the directories are made, or
a part of the content is written.  `Cut` lists the file systems that are left
then.  What a path shows, `shown?`, stays the same when the action writes a file
of another name, and when it makes the directories in which the path lies.

The second holds for paths that do not step back, because new directories stand
above the place of the path.  A path that steps back may come to lead to another
place once there are more directories; it does not when its own directory is
there already (`Settled`), and then there is nothing to make.
-/

namespace SkillEngine.FileSystem

variable {files other : FileSystem} {place : Location} {path : String}

/-- What stands where a path leads. -/
def shown? (files : FileSystem) (path : String) : Option Entry :=
  match files.locate path with
  | .ok place => files.entry? place
  | .error _ => none

theorem shown?_eq_some_iff {entry : Entry} :
    files.shown? path = some entry ↔
      ∃ place, files.locate path = .ok place ∧
        files.entry? place = some entry := by
  rw [shown?]
  cases files.locate path <;> simp

theorem exists?_eq (files : FileSystem) (path : String) :
    files.exists? path = (files.shown? path).isSome := by
  rw [FileSystem.exists?, shown?]
  cases files.locate path <;> rfl

theorem read_of_shown {content : ByteArray}
    (hshown : files.shown? path = some (.file content)) :
    files.read path = .ok content := by
  obtain ⟨place, hlocate, hfile⟩ := shown?_eq_some_iff.mp hshown
  exact read_of_locate hlocate hfile

theorem read_of_shown_directory
    (hshown : files.shown? path = some .directory) :
    files.read path = .error .isDirectory := by
  obtain ⟨place, hlocate, hdirectory⟩ := shown?_eq_some_iff.mp hshown
  rw [FileSystem.read, hlocate, ok_bind, hdirectory]

/-- The file systems that an action may leave when it stops before its end, or
at its end.  A move is made at once. -/
inductive Cut (files : FileSystem) : FileAction → FileSystem → Prop
  | untouched (action : FileAction) : Cut files action files
  | directories {path : String} {names : List String} {made : FileSystem}
      (houter : names <+: Path.parts path)
      (hmade : files.makeAll (Path.isRooted path) names.reverse = .ok made) :
      Cut files (.makeDirectories path) made
  | part {path : String} {part rest : ByteArray} {written : FileSystem}
      (hwritten : files.write path part = .ok written) :
      Cut files (.write path (part ++ rest)) written

theorem cut_leftBy (files : FileSystem) (action : FileAction) :
    Cut files action (files.leftBy action) := by
  cases action with
  | makeDirectories path =>
      obtain ⟨outer, houter, hmade⟩ := exists_makeAll_makeSome files
        (Path.isRooted path) (Path.parts path).reverse
      rw [← List.reverse_reverse outer] at hmade
      refine .directories ?_ hmade
      rwa [← List.reverse_suffix, List.reverse_reverse]
  | write path content => exact .untouched _
  | rename source target => exact .untouched _

/-! ## A file of another name -/

/-- What is shown stays when the directories and the entry in question do. -/
theorem KeepsDirectories.shown (hkeeps : KeepsDirectories files other)
    {entry : Entry} (hshown : files.shown? path = some entry)
    (hsame : ∀ place, files.locate path = .ok place →
      files.entry? place = some entry → other.entry? place = some entry) :
    other.shown? path = some entry := by
  obtain ⟨place, hlocate, hentry⟩ := shown?_eq_some_iff.mp hshown
  have hother := hsame place hlocate hentry
  obtain ⟨directory, henter, hplace, hslash⟩ := locate_eq_ok_iff.mp hlocate
  refine shown?_eq_some_iff.mpr ⟨place, ?_, hother⟩
  refine locate_eq_ok_iff.mpr ⟨directory, hkeeps.enter henter, hplace, ?_⟩
  rw [hother, ← hentry]
  exact hslash

/-- A path leads to a directory or to an entry of its own name. -/
theorem Grounded.cases_of_locate (h : files.Grounded)
    (hlocate : files.locate path = .ok place) :
    files.entry? place = some .directory ∨
      ∃ directory name, Path.entryName? path = some name ∧
        place = directory ++ [name] := by
  obtain ⟨directory, henter, hplace, -⟩ := locate_eq_ok_iff.mp hlocate
  have hdirectory := directory_of_enter henter
  by_cases hfree : files.entry? place = some .directory
  · exact .inl hfree
  · obtain ⟨name, hlast, rfl⟩ := h.place_of_placeIn hdirectory hplace hfree
    refine .inr ⟨directory, name, ?_, rfl⟩
    have hne : ∀ dots, step directory dots = .ok directory ∨
        step directory dots = .ok directory.dropLast → name ≠ dots := by
      rintro dots hdots rfl
      have hstep : step directory name = .ok (directory ++ [name]) := by
        simpa only [placeIn, hlast] using hplace
      rw [hstep, Except.ok.injEq, Except.ok.injEq] at hdots
      have hlength := hdots.imp (congrArg List.length) (congrArg List.length)
      simp only [List.length_append, List.length_singleton,
        List.length_dropLast] at hlength
      omega
    rw [Path.entryName?, hlast]
    simpa using ⟨hne "." (.inl rfl), hne ".." (.inr rfl)⟩

/-- A file that is written is not shown under paths of other names. -/
theorem Grounded.shown_of_write (h : files.Grounded) {target : String}
    {content : ByteArray} (hwrite : files.write target content = .ok other)
    (hname : ∀ name, Path.entryName? target = some name →
      Path.entryName? path ≠ some name) :
    other.shown? path = files.shown? path := by
  have hgrounded := h.write hwrite
  obtain ⟨place, hleads, hfree, rfl⟩ := write_eq_ok_iff.mp hwrite
  have hne := ne_nil_of_not_directory hfree
  obtain ⟨directory, name, henter, htarget, hstep⟩ := hleads.reached
  obtain rfl := h.place_of_step (directory_of_enter henter) hstep hfree
  set target := directory ++ [name]
  set written := files.put target (.file content)
  have hfile : written.entry? target = some (.file content) :=
    entry_put_self files _ hne
  have hkeeps : KeepsDirectories files written := .put hfree
  have hback : KeepsDirectories written files := by
    refine ⟨rfl, fun place hplace => ?_⟩
    have hother : place ≠ target := by
      rintro rfl
      rw [hfile] at hplace
      simp at hplace
    rwa [← entry_put_of_ne files (.file content) hother]
  -- The path leads past the new file, before and after.
  have hapart : ∀ {tree : FileSystem} {place : Location}, tree.Grounded →
      tree.entry? target ≠ some .directory →
      tree.locate path = .ok place → place ≠ target := by
    rintro tree place htree hnone hlocate rfl
    rcases htree.cases_of_locate hlocate with hdirectory |
      ⟨above, last, hpath, hplace⟩
    · exact hnone hdirectory
    · obtain ⟨-, hlast⟩ := List.append_inj' hplace rfl
      obtain rfl := List.singleton_inj.mp hlast
      exact hname _ htarget hpath
  have hnot : written.entry? target ≠ some .directory := by simp [hfile]
  ext entry
  constructor
  · intro hshown
    apply hback.shown hshown
    intro place hlocate hentry
    rwa [← entry_put_of_ne files (.file content)
      (hapart hgrounded hnot hlocate)]
  · intro hshown
    apply hkeeps.shown hshown
    intro place hlocate hentry
    rwa [entry_put_of_ne files (.file content) (hapart h hfree hlocate)]

/-! ## The directories in which a path lies -/

/-- Everything stays, and deeper than so many names nothing is new. -/
structure AddsWithin (depth : Nat) (files other : FileSystem) : Prop where
  stays : Extends files other
  deeper : ∀ place, depth < place.length →
    other.entry? place = files.entry? place

theorem AddsWithin.trans {depth further : Nat} {last : FileSystem}
    (h : AddsWithin depth files other) (hlast : AddsWithin further other last)
    (hdepth : depth ≤ further) : AddsWithin further files last := by
  refine ⟨h.stays.trans hlast.stays, fun place hplace => ?_⟩
  rw [hlast.deeper place hplace, h.deeper place (by omega)]

theorem addsWithin_ensureDirectory (hplain : ".." ∉ Path.parts path)
    (hensure : files.ensureDirectory path = .ok other) :
    AddsWithin ((files.start path).length + (Path.parts path).length)
      files other := by
  refine ⟨extends_ensureDirectory hensure, fun target htarget => ?_⟩
  rw [FileSystem.ensureDirectory] at hensure
  split at hensure
  next =>
    split at hensure
    · rw [Except.ok.inj hensure]
    · simp at hensure
  next =>
    rw [FileSystem.makeDirectory] at hensure
    obtain ⟨place, hlocate, hmake⟩ := bind_eq_ok_iff.mp hensure
    split at hmake
    · simp at hmake
    · obtain rfl := Except.ok.inj hmake
      apply entry_put_of_ne
      rintro rfl
      rw [locate_of_plain hplain hlocate, List.length_append] at htarget
      omega

theorem addsWithin_makeAll {rooted : Bool} {names : List String}
    (hnames : ∀ name ∈ names, Path.IsName name) (hplain : ".." ∉ names)
    (hmake : files.makeAll rooted names = .ok other) :
    AddsWithin ((if rooted then [] else files.current).length + names.length)
      files other := by
  induction names generalizing other with
  | nil =>
      obtain rfl := Except.ok.inj hmake
      exact ⟨extends_refl files, fun _ _ => rfl⟩
  | cons name outer ih =>
      have hreversed : ∀ other ∈ (name :: outer).reverse, Path.IsName other :=
        fun other hother => hnames other (List.mem_reverse.mp hother)
      have hparts := Path.parts_ofParts rooted hreversed
      have hrooted := Path.isRooted_ofParts rooted hreversed
      set path := Path.ofParts rooted (name :: outer).reverse with hpath
      have hstep : ∀ {tree made : FileSystem}, tree.current = files.current →
          tree.ensureDirectory path = .ok made →
          AddsWithin ((if rooted then [] else files.current).length +
            (name :: outer).length) tree made := by
        intro tree made hcurrent hensure
        have hadds := addsWithin_ensureDirectory
          (by rwa [hparts, List.mem_reverse]) hensure
        rwa [start, hrooted, hcurrent, hparts, List.length_reverse] at hadds
      simp only [FileSystem.makeAll, ← hpath] at hmake
      split at hmake
      · obtain ⟨made, hmade, hensure⟩ := bind_eq_ok_iff.mp hmake
        have houter := ih (fun other h => hnames other (List.mem_cons_of_mem _ h))
          (fun h => hplain (List.mem_cons_of_mem _ h)) hmade
        exact houter.trans (hstep houter.stays.current hensure)
          (by simp)
      · exact hstep rfl hmake

/-- New directories above its place make no difference to a path. -/
theorem AddsWithin.shown {depth : Nat} (h : AddsWithin depth files other)
    (hgrounded : files.Grounded) (hplain : ".." ∉ Path.parts path)
    (hdepth : depth < (files.start path).length + (Path.parts path).length) :
    other.shown? path = files.shown? path := by
  have hkeeps := h.stays.keeps
  have hstart : other.start path = files.start path := by
    rw [start, start, h.stays.current]
  ext entry
  constructor
  · intro hshown
    obtain ⟨place, hlocate, hentry'⟩ := shown?_eq_some_iff.mp hshown
    have hplace := locate_of_plain hplain hlocate
    have hentry : files.entry? place = some entry := by
      rw [← h.deeper place, hentry']
      rw [hplace, hstart, List.length_append]
      exact hdepth
    obtain ⟨directory, henter, hlast, hslash⟩ := locate_eq_ok_iff.mp hlocate
    obtain ⟨hfault, hwalk⟩ := enter_eq_ok_iff.mp henter
    have hdirectory : files.entry? directory = some .directory := by
      by_cases hsame : directory = place
      · rw [hsame, hentry, ← hentry', ← hsame]
        exact directory_of_enter henter
      · refine hgrounded.directory_above ?_ hsame hentry
        rw [placeIn_of_plain (not_mem_steps_of_parts hplain) hlast]
        exact List.prefix_append _ _
    have hfront : ".." ∉ (Path.steps path).dropLast := fun hmem =>
      not_mem_steps_of_parts hplain ((List.dropLast_sublist _).subset hmem)
    rw [hstart] at hwalk
    refine shown?_eq_some_iff.mpr ⟨place, locate_eq_ok_iff.mpr
      ⟨directory, ?_, hlast, ?_⟩, hentry⟩
    · exact enter_eq_ok_iff.mpr
        ⟨hfault, hgrounded.walk hfront hwalk hdirectory⟩
    · rwa [hentry, ← hentry']
  · intro hshown
    apply hkeeps.shown hshown
    intro place _ hentry
    exact h.stays.entries place entry hentry

/-- The names of the directory of a path are walked when the path is entered. -/
theorem dropLast_parts_begins (path : String) :
    (Path.parts path).dropLast <+:
      (Path.steps path).dropLast.filter (· != ".") := by
  rw [Path.parts_eq_filter_steps]
  rcases List.eq_nil_or_concat (Path.steps path) with hnil | ⟨front, last, h⟩
  · simp [hnil]
  · rw [List.concat_eq_append] at h
    rw [h, List.dropLast_concat, List.filter_append]
    by_cases hlast : last = "."
    · simpa [hlast] using List.dropLast_prefix _
    · simp [hlast]

/-- Names that can be walked lead to a directory. -/
theorem isDirectory_ofParts {rooted : Bool} {names : List String}
    {found : Location} (hnames : ∀ name ∈ names, Path.IsName name)
    (hfault : pathFault? (Path.ofParts rooted names) = none)
    (hwalk : files.walk (if rooted then [] else files.current) names =
      .ok found) :
    files.isDirectory (Path.ofParts rooted names) = true := by
  have hsteps := Path.steps_ofParts rooted hnames
  have hstart : files.start (Path.ofParts rooted names) =
      if rooted then [] else files.current := by
    rw [start, Path.isRooted_ofParts rooted hnames]
  have hfound := directory_of_walk hwalk
  refine isDirectory_iff.mpr ⟨found, locate_eq_ok_iff.mpr ?_, hfound⟩
  rcases List.eq_nil_or_concat names with rfl | ⟨front, last, hsame⟩
  · refine ⟨found, enter_eq_ok_iff.mpr ⟨hfault, ?_⟩, ?_, ?_⟩
    · rwa [hstart, hsteps]
    · rw [placeIn, hsteps]
      rfl
    · simp [hfound]
  · rw [List.concat_eq_append] at hsame
    subst hsame
    obtain ⟨middle, hfront, hlast⟩ := walk_append hwalk
    rw [FileSystem.walk] at hlast
    obtain ⟨directory, hdirectory, hlast⟩ := bind_eq_ok_iff.mp hlast
    obtain ⟨next, hstep, hend⟩ := bind_eq_ok_iff.mp hlast
    obtain ⟨-, rfl⟩ := directoryAt_eq_ok_iff.mp hdirectory
    obtain ⟨-, rfl⟩ := directoryAt_eq_ok_iff.mp hend
    refine ⟨directory, enter_eq_ok_iff.mpr ⟨hfault, ?_⟩, ?_, ?_⟩
    · rwa [hstart, hsteps, List.dropLast_concat]
    · simp only [placeIn, hsteps, List.getLast?_concat]
      exact hstep
    · simp [hfound]

theorem pathFault_ne_notFound {fault : FileFault} (hne : path ≠ "")
    (hfault : pathFault? path = some fault) : fault ≠ .notFound := by
  have hempty : path.isEmpty = false := by
    simpa [String.isEmpty_iff] using hne
  rintro rfl
  rw [pathFault?, hempty] at hfault
  split at hfault
  · simp at hfault
  · split at hfault <;> simp_all

theorem ensureDirectory_of_fault {fault : FileFault}
    (hfault : pathFault? path = some fault) :
    files.ensureDirectory path = .error fault := by
  have hlocate : files.locate path = .error fault := by
    rw [FileSystem.locate, FileSystem.enter, hfault]
    rfl
  have hmake : files.makeDirectory path = .error fault := by
    rw [FileSystem.makeDirectory, hlocate]
    rfl
  rw [FileSystem.ensureDirectory, hmake, FileSystem.isDirectory, hlocate]
  rfl

/-- Where a path is entered there is no directory left to make. -/
theorem makeAll_of_enter {directory : Location}
    (henter : files.enter path = .ok directory) {names : List String}
    (houter : names <+: (Path.parts path).dropLast)
    (hmade : files.makeAll (Path.isRooted path) names.reverse = .ok other) :
    other = files := by
  have hnames : ∀ name ∈ names, Path.IsName name := fun name hname =>
    Path.isName_of_mem_parts
      ((List.dropLast_sublist _).subset (houter.subset hname))
  obtain ⟨-, hwalk⟩ := enter_eq_ok_iff.mp henter
  obtain ⟨more, hmore⟩ := houter.trans (dropLast_parts_begins path)
  rw [← walk_filter, ← hmore] at hwalk
  obtain ⟨found, hwalk, -⟩ := walk_append hwalk
  cases hreversed : names.reverse with
  | nil =>
      rw [hreversed] at hmade
      exact (Except.ok.inj hmade).symm
  | cons last front =>
      have hsame : (last :: front).reverse = names := by
        rw [← hreversed, List.reverse_reverse]
      have hne : names ≠ [] := by
        rintro rfl
        simp at hreversed
      rw [hreversed] at hmade
      simp only [FileSystem.makeAll, hsame] at hmade
      set target := Path.ofParts (Path.isRooted path) names with htarget
      cases hfault : pathFault? target with
      | none =>
          rw [ensureDirectory_of_isDirectory
            (isDirectory_ofParts hnames hfault hwalk)] at hmade
          exact (Except.ok.inj hmade).symm
      | some fault =>
          have hnone := pathFault_ne_notFound (Path.ofParts_ne_empty _ hne hnames)
            hfault
          rw [ensureDirectory_of_fault hfault] at hmade
          cases fault <;> simp at hmade hnone

/-- The way to a path does not step back out of directories that have yet to be
made. -/
def Settled (files : FileSystem) (path : String) : Prop :=
  ".." ∈ Path.parts path → ∃ directory, files.enter path = .ok directory

/-- The directories in which a path lies make no difference to it, or those on
its way back are there already. -/
theorem Grounded.shown_of_makeAll (h : files.Grounded)
    (hsettled : files.Settled path)
    {names : List String} (houter : names <+: (Path.parts path).dropLast)
    (hmade : files.makeAll (Path.isRooted path) names.reverse = .ok other) :
    other.shown? path = files.shown? path := by
  by_cases hplain : ".." ∈ Path.parts path
  · obtain ⟨directory, henter⟩ := hsettled hplain
    rw [makeAll_of_enter henter houter hmade]
  · by_cases hnil : names = []
    · subst hnil
      rw [← Except.ok.inj hmade]
    · have hparts : ∀ name ∈ names, name ∈ Path.parts path := fun name hname =>
        (List.dropLast_sublist _).subset (houter.subset hname)
      have hadds := addsWithin_makeAll
        (fun name hname => Path.isName_of_mem_parts
          (hparts name (List.mem_reverse.mp hname)))
        (fun hmem => hplain (hparts _ (List.mem_reverse.mp hmem))) hmade
      refine hadds.shown h hplain ?_
      have hlength := houter.length_le
      have hpos := List.length_pos_iff.mpr hnil
      rw [List.length_dropLast] at hlength
      rw [List.length_reverse, start]
      omega

/-! ## Paths that stay intact -/

/-- The path shows in the other tree what it shows here. -/
structure Intact (path : String) (files other : FileSystem) : Prop where
  grounded : other.Grounded
  settled : other.Settled path
  shown : other.shown? path = files.shown? path

theorem intact_refl (hgrounded : files.Grounded)
    (hsettled : files.Settled path) : Intact path files files :=
  ⟨hgrounded, hsettled, rfl⟩

theorem Settled.of_keeps (h : files.Settled path)
    (hkeeps : KeepsDirectories files other) : other.Settled path := by
  intro hback
  obtain ⟨directory, henter⟩ := h hback
  exact ⟨directory, hkeeps.enter henter⟩

/-- The action makes directories in which the path lies, or writes a file of
another name. -/
inductive Beside (path : String) : FileAction → Prop
  | above {directory : String}
      (hrooted : Path.isRooted directory = Path.isRooted path)
      (hparts : Path.parts directory = (Path.parts path).dropLast) :
      Beside path (.makeDirectories directory)
  | elsewhere {target : String} {content : ByteArray}
      (hname : ∀ name, Path.entryName? target = some name →
        Path.entryName? path ≠ some name) :
      Beside path (.write target content)

/-- Wherever an action beside the path stops, the path shows the same. -/
theorem Intact.cut {reached : FileSystem} {action : FileAction}
    (h : Intact path files reached) (hbeside : Beside path action)
    (hcut : reached.Cut action other) : Intact path files other := by
  obtain ⟨hgrounded, hsettled, hshown⟩ := h
  cases hcut with
  | untouched => exact ⟨hgrounded, hsettled, hshown⟩
  | @directories directory names _ houter hmade =>
      cases hbeside with
      | above hrooted hparts =>
          rw [hparts] at houter
          rw [hrooted] at hmade
          refine ⟨hgrounded.makeAll hmade,
            hsettled.of_keeps (extends_makeAll hmade).keeps, ?_⟩
          rw [hgrounded.shown_of_makeAll hsettled houter hmade, hshown]
  | part hwritten =>
      cases hbeside with
      | elsewhere hname =>
          refine ⟨hgrounded.write hwritten,
            hsettled.of_keeps (keeps_of_write hwritten), ?_⟩
          rw [hgrounded.shown_of_write hwritten hname, hshown]

/-- An action beside the path that is performed is one that stops at its end. -/
theorem cut_of_perform {action : FileAction} (hbeside : Beside path action)
    (hperform : files.perform action = .ok other) : files.Cut action other := by
  cases hbeside with
  | above => exact .directories List.prefix_rfl hperform
  | @elsewhere target content =>
      have hwhole : Cut files (.write target (content ++ ByteArray.empty))
          other := .part hperform
      rwa [ByteArray.append_empty] at hwhole

end SkillEngine.FileSystem
