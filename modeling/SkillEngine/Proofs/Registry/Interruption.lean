import SkillEngine.Proofs.FileSystem.Interruption
import SkillEngine.Proofs.Registry.Reopening

/-!
# Saves that are broken off

Before its last action a save does not touch what the path of the store shows:
it makes directories in which the path lies, and it writes a draft of another
name.  So the save may be refused, or stop between any two of its actions or in
the midst of one, and the same skills are loaded as before.
-/

namespace SkillEngine

namespace Store

open FileSystem

variable {store : Store} {files other : FileSystem} {skills : List Skill}

/-- The file systems that a save may leave when it stops before its end: some of
its actions are done and the next one is cut. -/
def Interrupts (store : Store) (skills : List Skill)
    (files other : FileSystem) : Prop :=
  ∃ done action rest reached,
    store.saveActions (StoreDocument.ofSkills skills).text =
      done ++ action :: rest ∧
    store.performAll done files = (.ok (), reached) ∧ reached.Cut action other

/-! ## The actions of a save -/

theorem isName_draft (path : String) :
    Path.IsName ((Path.fileName? path).getD "" ++ ".tmp") ∧
      (Path.fileName? path).getD "" ++ ".tmp" ≠ ".." := by
  have hletters : ∀ (name : String), (name ++ ".tmp").toList =
      name.toList ++ ['.', 't', 'm', 'p'] := fun name => by
    rw [String.toList_append]
    rfl
  have hlong : ∀ name other : String, other.length < 4 →
      name ++ ".tmp" ≠ other := by
    rintro name other hshort rfl
    rw [← String.length_toList, hletters, List.length_append] at hshort
    simp at hshort
  refine ⟨⟨?_, hlong _ "" (by decide), hlong _ "." (by decide)⟩,
    hlong _ ".." (by decide)⟩
  rw [hletters]
  refine List.forall_mem_append.mpr ⟨?_, by simp⟩
  cases hfile : Path.fileName? path with
  | none => simp
  | some name =>
      have hlast := (Option.filter_eq_some_iff.mp hfile).1
      exact (Path.isName_of_mem_parts (List.mem_of_getLast? hlast)).free

/-- The draft has another name than the file of the store. -/
theorem entryName?_draftPath {name : String}
    (h : Path.entryName? store.draftPath = some name) :
    Path.entryName? store.path ≠ some name := by
  intro hpath
  obtain ⟨hname, hback⟩ := isName_draft store.path
  rw [draftPath, Path.entryName?_withFileName hname hback,
    Path.fileName?_of_entryName? hpath] at h
  have hlength := congrArg String.length (Option.some.inj h)
  simp at hlength

/-- Up to the move of the draft a save acts beside the path of the store. -/
theorem beside_of_mem {text : String} {action : FileAction}
    (hmem : action ∈ store.directoryActions ++
      [.write store.draftPath text.toUTF8]) : Beside store.path action := by
  rcases List.mem_append.mp hmem with hmem | hmem
  · rw [directoryActions] at hmem
    split at hmem
    next directory hparent =>
      obtain rfl := List.mem_singleton.mp hmem
      obtain ⟨hparent, -⟩ := Option.filter_eq_some_iff.mp hparent
      rw [Path.parent?] at hparent
      split at hparent
      · simp at hparent
      · obtain rfl := Option.some.inj hparent
        have hnames : ∀ name ∈ (Path.parts store.path).dropLast,
            Path.IsName name := fun name hname =>
          Path.isName_of_mem_parts ((List.dropLast_sublist _).subset hname)
        exact .above (Path.isRooted_ofParts _ hnames)
          (Path.parts_ofParts _ hnames)
    next => simp at hmem
  · obtain rfl := List.mem_singleton.mp hmem
    exact .elsewhere fun _ => entryName?_draftPath

/-- What every action keeps, all of them together keep. -/
theorem of_performAll {P : FileSystem → Prop} {actions : List FileAction}
    (hkeeps : ∀ action ∈ actions, ∀ before after, P before →
      before.perform action = .ok after → P after)
    (hfiles : P files)
    (hperform : store.performAll actions files = (.ok (), other)) : P other := by
  induction actions generalizing files with
  | nil =>
      obtain rfl : files = other := by simpa [performAll] using hperform
      exact hfiles
  | cons action actions ih =>
      obtain ⟨haction, hactions⟩ := List.forall_mem_cons.mp hkeeps
      rw [performAll] at hperform
      split at hperform
      next made hmade =>
        exact ih hactions (haction files made hfiles hmade) hperform
      next => simp at hperform

/-- Actions beside a path that are all performed leave it intact. -/
theorem intact_of_performAll {path : String} {actions : List FileAction}
    {reached : FileSystem} (h : Intact path files reached)
    (hbeside : ∀ action ∈ actions, Beside path action)
    (hperform : store.performAll actions reached = (.ok (), other)) :
    Intact path files other := by
  refine of_performAll (fun action haction before after hbefore hmade => ?_) h
    hperform
  exact hbefore.cut (hbeside action haction)
    (cut_of_perform (hbeside action haction) hmade)

/-- Whatever actions are performed, the tree stays one and the way to a path
stays settled. -/
theorem settled_of_performAll {path : String} {actions : List FileAction}
    (hgrounded : files.Grounded) (hsettled : files.Settled path)
    (hperform : store.performAll actions files = (.ok (), other)) :
    other.Grounded ∧ other.Settled path := by
  refine of_performAll (P := fun files => files.Grounded ∧ files.Settled path)
    ?_ ⟨hgrounded, hsettled⟩ hperform
  intro action _ before after hbefore hmade
  exact ⟨hbefore.1.perform hmade, hbefore.2.of_keeps (keeps_of_perform hmade)⟩

/-- Where an action is refused the others before it are done, and it is cut. -/
theorem cut_of_performAll_error {actions : List FileAction} {failure : Failure}
    (hperform : store.performAll actions files = (.error failure, other)) :
    ∃ done action rest reached, actions = done ++ action :: rest ∧
      store.performAll done files = (.ok (), reached) ∧
      reached.Cut action other := by
  induction actions generalizing files with
  | nil => simp [performAll] at hperform
  | cons action actions ih =>
      rw [performAll] at hperform
      split at hperform
      next made hmade =>
        obtain ⟨done, next, rest, reached, rfl, hdone, hcut⟩ := ih hperform
        refine ⟨action :: done, next, rest, reached, rfl, ?_, hcut⟩
        simpa only [performAll, hmade] using hdone
      next fault =>
        obtain ⟨-, rfl⟩ := Prod.mk.inj hperform
        exact ⟨[], action, actions, files, rfl, rfl, cut_leftBy files action⟩

theorem interrupts_of_error {failure : Failure}
    (hsave : store.save skills files = (.error failure, other)) :
    store.Interrupts skills files other :=
  cut_of_performAll_error hsave

/-! ## What is loaded after a save was broken off -/

/-- Wherever a save stops before its end, the path of the store shows what it
showed. -/
theorem Interrupts.intact (h : store.Interrupts skills files other)
    (hgrounded : files.Grounded) (hsettled : files.Settled store.path) :
    Intact store.path files other := by
  obtain ⟨done, action, rest, reached, hactions, hdone, hcut⟩ := h
  have hstart := intact_refl hgrounded hsettled
  set text := (StoreDocument.ofSkills skills).text
  -- The move stands last, so all the actions before it are beside the path.
  have hsplit : (store.directoryActions ++
      [.write store.draftPath text.toUTF8]) ++
      [.rename store.draftPath store.path] = done ++ action :: rest := by
    rw [← hactions, saveActions, List.append_assoc]
    rfl
  rcases List.eq_nil_or_concat rest with rfl | ⟨before, last, hrest⟩
  · obtain ⟨rfl, hlast⟩ := List.append_inj' hsplit rfl
    obtain rfl := List.singleton_inj.mp hlast
    have hreached := intact_of_performAll hstart
      (fun action hmem => beside_of_mem hmem) hdone
    cases hcut with
    | untouched => exact hreached
  · rw [List.concat_eq_append] at hrest
    subst hrest
    rw [← List.cons_append, ← List.append_assoc] at hsplit
    obtain ⟨hfront, -⟩ := List.append_inj' hsplit rfl
    have hbeside : ∀ each ∈ done ++ action :: before,
        Beside store.path each := by
      rw [← hfront]
      exact fun each hmem => beside_of_mem hmem
    obtain ⟨hbefore, haction⟩ := List.forall_mem_append.mp hbeside
    exact (intact_of_performAll hstart hbefore hdone).cut
      (haction action List.mem_cons_self) hcut

/-- What is loaded depends on what the path of the store shows. -/
theorem load_congr (hshown : other.shown? store.path = files.shown? store.path) :
    store.load other = store.load files := by
  have hread : ∀ entry, files.shown? store.path = some entry →
      other.readText store.path = files.readText store.path := by
    intro entry hfiles
    have hother := hshown.trans hfiles
    rw [FileSystem.readText, FileSystem.readText]
    cases entry with
    | file content => rw [read_of_shown hother, read_of_shown hfiles]
    | directory =>
        rw [read_of_shown_directory hother, read_of_shown_directory hfiles]
  rw [load, load, exists?_eq, exists?_eq, hshown]
  cases hfiles : files.shown? store.path with
  | none => rfl
  | some entry => rw [hread entry hfiles]

/-- After a save the path of the store shows the text of the skills. -/
theorem shown_of_save (hsave : store.save skills files = (.ok (), other)) :
    other.shown? store.path =
      some (.file (StoreDocument.ofSkills skills).text.toUTF8) := by
  obtain ⟨prepared, drafted, -, hwrite, hrename⟩ := save_eq_ok_iff.mp hsave
  obtain ⟨draft, hdraft, hfile⟩ := FileSystem.leadsTo_of_write hwrite
  obtain ⟨place, hplace, hfile⟩ :=
    FileSystem.leadsTo_of_rename (hdraft.read hfile) hrename
  exact shown?_eq_some_iff.mpr
    ⟨place, hplace.locate, hfile⟩

/-- Skills that can be stored and leave room for the document around them are
loaded after they were saved. -/
theorem load_of_save (hsave : store.save skills files = (.ok (), other))
    (hcanonical : ∀ skill ∈ skills, skill.Canonical)
    (hstorable : ∀ skill ∈ skills, skill.Storable)
    (hroom : ∀ skill ∈ skills, skill.depth + 2 ≤ Json.nestingLimit)
    (hback : ∀ number ∈ (StoreDocument.ofSkills skills).numbers,
      number.ReadsBack) : store.load other = .ok skills := by
  obtain ⟨hexists, htext⟩ := text_of_save hsave
  exact load_of_text hexists htext
    ((StoreDocument.ofText_text_eq_ok_iff hcanonical hback).mpr
      ⟨hstorable, (StoreDocument.depth_le_nestingLimit_iff skills).mpr hroom⟩)

/-- A save replaces what the path of the store shows as a whole or not at all.
Where it stops before its end, at any point, and where it fails, the path shows
what it showed, and what is loaded is the same.  Where it succeeds the path
shows the text of the skills, and these are loaded if they can be stored.  The
same holds of the next save, whatever the last one has left. -/
theorem save_replaces_or_keeps (store : Store) (skills : List Skill)
    (files : FileSystem) (hgrounded : files.Grounded)
    (hsettled : files.Settled store.path) :
    (∀ other, store.Interrupts skills files other →
      Intact store.path files other ∧
      store.load other = store.load files) ∧
    (∀ failure other, store.save skills files = (.error failure, other) →
      Intact store.path files other ∧
      store.load other = store.load files) ∧
    (∀ other, store.save skills files = (.ok (), other) →
      (other.Grounded ∧ other.Settled store.path) ∧
      other.shown? store.path =
        some (.file (StoreDocument.ofSkills skills).text.toUTF8) ∧
      ((∀ skill ∈ skills, skill.Canonical) →
        (∀ skill ∈ skills, skill.Storable) →
        (∀ skill ∈ skills, skill.depth + 2 ≤ Json.nestingLimit) →
        (∀ number ∈ (StoreDocument.ofSkills skills).numbers,
          number.ReadsBack) →
        store.load other = .ok skills)) := by
  have hkept : ∀ other, store.Interrupts skills files other →
      Intact store.path files other ∧ store.load other = store.load files := by
    intro other hstopped
    have hintact := hstopped.intact hgrounded hsettled
    exact ⟨hintact, load_congr hintact.shown⟩
  refine ⟨hkept, ?_, ?_⟩
  · intro failure other hsave
    exact hkept other (interrupts_of_error hsave)
  · intro other hsave
    exact ⟨settled_of_performAll hgrounded hsettled hsave, shown_of_save hsave,
      load_of_save hsave⟩

/-- A stored text beside a draft that was left over. -/
def leftOver : FileSystem :=
  (FileSystem.empty.put ["s.json"]
    (.file (StoreDocument.ofSkills []).text.toUTF8)).put ["s.json.tmp"]
    (.file "\x7b \"skills\": [ \x7b".toUTF8)

theorem leftOver_grounded : leftOver.Grounded :=
  grounded_of_flat (by decide)

theorem leftOver_write (content : ByteArray) :
    leftOver.write "s.json.tmp" content =
      .ok (leftOver.put ["s.json.tmp"] (.file content)) := rfl

theorem leftOver_save (skills : List Skill) :
    ∃ saved, Store.save ⟨"s.json"⟩ skills leftOver = (.ok (), saved) := by
  have hmove : ∀ content, ∃ saved,
      FileSystem.rename (leftOver.put ["s.json.tmp"] (.file content))
        "s.json.tmp" "s.json" = .ok saved := fun _ => ⟨_, rfl⟩
  obtain ⟨saved, hsaved⟩ :=
    hmove (StoreDocument.ofSkills skills).text.toUTF8
  exact ⟨saved, save_eq_ok_iff.mpr
    ⟨leftOver, _, rfl, leftOver_write _, hsaved⟩⟩

/-- A part of a new draft in the place of one that was left over is not loaded.
The draft is when it is whole. -/
theorem warm_replaces_or_keeps :
    let text := (StoreDocument.ofSkills [warm]).text.toUTF8
    let stopped := leftOver.put ["s.json.tmp"] (.file (text.extract 0 8))
    leftOver.Grounded ∧ leftOver.Settled "s.json" ∧
      Store.Interrupts ⟨"s.json"⟩ [warm] leftOver stopped ∧
      Store.load ⟨"s.json"⟩ stopped = Store.load ⟨"s.json"⟩ leftOver ∧
      ∃ saved, Store.save ⟨"s.json"⟩ [warm] leftOver = (.ok (), saved) ∧
        Store.load ⟨"s.json"⟩ saved = .ok [warm] := by
  intro text stopped
  have hsettled : leftOver.Settled "s.json" := by
    intro hback
    exact absurd hback (by decide)
  have hstopped : Store.Interrupts ⟨"s.json"⟩ [warm] leftOver stopped := by
    have hactions : ∀ text, Store.saveActions ⟨"s.json"⟩ text =
        [.write "s.json.tmp" text.toUTF8, .rename "s.json.tmp" "s.json"] :=
      fun _ => rfl
    have hparts : text = text.extract 0 8 ++ text.extract 8 text.size := by
      rw [ByteArray.extract_append_extract]
      simp
    refine ⟨[], .write "s.json.tmp" text, [.rename "s.json.tmp" "s.json"],
      leftOver, hactions _, rfl, ?_⟩
    rw [hparts]
    exact .part (leftOver_write _)
  obtain ⟨saved, hsave⟩ := leftOver_save [warm]
  obtain ⟨hkept, -, hdone⟩ :=
    save_replaces_or_keeps ⟨"s.json"⟩ [warm] leftOver leftOver_grounded hsettled
  refine ⟨leftOver_grounded, hsettled, hstopped, (hkept stopped hstopped).2,
    saved, hsave, (hdone saved hsave).2.2 ?_ ?_ ?_ warm_numbers_readBack⟩
  · simpa using warm_canonical
  · simpa using warm_storable
  · decide

/-- A text that is no document, and a directory in the place of the draft. -/
def blockedDraft : FileSystem :=
  ⟨[(["s.json"], .file "\x7b not json".toUTF8), (["s.json.tmp"], .directory)],
    []⟩

theorem blockedDraft_save (skills : List Skill) :
    Store.save ⟨"gone/../s.json"⟩ skills blockedDraft =
      (.error (.file .isDirectory), blockedDraft.put ["gone"] .directory) := by
  have hactions : ∀ text, Store.saveActions ⟨"gone/../s.json"⟩ text =
      [.makeDirectories "gone/..", .write "gone/../s.json.tmp" text.toUTF8,
        .rename "gone/../s.json.tmp" "gone/../s.json"] :=
    fun _ => rfl
  have hmade : blockedDraft.makeDirectories "gone/.." =
      .ok (blockedDraft.put ["gone"] .directory) := rfl
  have hwrite : ∀ content,
      FileSystem.write (blockedDraft.put ["gone"] .directory)
        "gone/../s.json.tmp" content = .error .isDirectory := fun _ => rfl
  simp only [save, hactions, performAll, FileSystem.perform, hmade, hwrite]
  rfl

/-- Where the way to the store steps back out of a directory that the save makes
first, a save that fails changes what is loaded.  What is saved is not loaded
when it is nested too deep. -/
theorem save_leads_elsewhere :
    let astray : Store := ⟨"gone/../s.json"⟩
    let failed := astray.save [warm] blockedDraft
    let deep := Store.save ⟨"s.json"⟩ [nestedDefault 121] .empty
    (failed.1 = .error (.file .isDirectory) ∧
      blockedDraft.shown? astray.path = none ∧
      astray.load blockedDraft = .ok [] ∧
      failed.2.shown? astray.path =
        some (.file "\x7b not json".toUTF8) ∧
      astray.load failed.2 = .error (astray.unreadable .malformed)) ∧
    deep.1 = .ok () ∧
      Store.load ⟨"s.json"⟩ deep.2 =
        .error (Store.unreadable ⟨"s.json"⟩ .malformed) := by
  intro astray failed deep
  have hfailed : failed = (.error (.file .isDirectory),
      blockedDraft.put ["gone"] .directory) := blockedDraft_save [warm]
  constructor
  · have hbefore : blockedDraft.shown? "gone/../s.json" = none := rfl
    have hload : Store.load ⟨"gone/../s.json"⟩ blockedDraft = .ok [] := rfl
    have hafter : FileSystem.shown? (blockedDraft.put ["gone"] .directory)
        "gone/../s.json" = some (.file "\x7b not json".toUTF8) := rfl
    have hunread : Store.load ⟨"gone/../s.json"⟩
        (blockedDraft.put ["gone"] .directory) =
          .error (Store.unreadable ⟨"gone/../s.json"⟩ .malformed) := by
      have hexists : FileSystem.exists? (blockedDraft.put ["gone"] .directory)
          "gone/../s.json" = true := rfl
      have hread : FileSystem.read (blockedDraft.put ["gone"] .directory)
          "gone/../s.json" = .ok "\x7b not json".toUTF8 := rfl
      have hparse : Json.parse? StoreDocument.codec.shape "\x7b not json" =
          none := rfl
      simp only [load, hexists, if_true, FileSystem.readText, hread, ok_bind,
        fromUTF8?_toUTF8, skillsOf, StoreDocument.ofText, hparse]
    rw [hfailed]
    exact ⟨rfl, hbefore, hload, hafter, hunread⟩
  · have hdeep : Store.save ⟨"s.json"⟩ [nestedDefault 121] .empty =
        (.ok (), deep.2) := rfl
    obtain ⟨hexists, htext⟩ := text_of_save hdeep
    refine ⟨rfl, ?_⟩
    have hdepth : (StoreDocument.ofSkills [nestedDefault 121]).depth = 128 := by
      decide +kernel
    rw [load_eq_of_text hexists htext, hdepth, if_neg (by decide)]
    · exact List.forall_mem_singleton.mpr (nestedDefault_canonical 121)
    · exact StoreDocument.readsBack_of_numbers (by decide +kernel)

end Store

end SkillEngine
