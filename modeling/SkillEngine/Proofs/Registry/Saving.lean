import SkillEngine.Proofs.FileSystem.Frame
import SkillEngine.Registry.Store

/-!
# Saving

A save makes the directories of the store, writes a draft and moves it, which
leaves the text of the skills in the file.  None of this is in the way of the
next save, so a store that was saved once can be saved with any skills.
-/

namespace SkillEngine.Store

variable {store : Store} {files saved : FileSystem} {skills : List Skill}

/-! ## What a save leaves -/

theorem performAll_append (store : Store) (first second : List FileAction)
    (files : FileSystem) :
    store.performAll (first ++ second) files =
      match store.performAll first files with
      | (.ok (), files) => store.performAll second files
      | refused => refused := by
  induction first generalizing files with
  | nil => rfl
  | cons action first ih =>
      rw [List.cons_append, performAll, performAll]
      cases files.perform action with
      | error fault => rfl
      | ok next => exact ih next

/-- The steps of a save that succeeded: directories, draft and file. -/
theorem save_eq_ok_iff : store.save skills files = (.ok (), saved) ↔
    ∃ prepared drafted,
      store.performAll store.directoryActions files = (.ok (), prepared) ∧
      prepared.write store.draftPath
        (StoreDocument.ofSkills skills).text.toUTF8 = .ok drafted ∧
      drafted.rename store.draftPath store.path = .ok saved := by
  rw [save, saveActions, performAll_append]
  constructor
  · intro hsave
    split at hsave
    next prepared hprepared =>
      rw [performAll] at hsave
      split at hsave
      next drafted hdrafted =>
        rw [performAll] at hsave
        split at hsave
        next moved hmoved =>
          obtain rfl : moved = saved := by simpa [performAll] using hsave
          exact ⟨prepared, drafted, hprepared, hdrafted, hmoved⟩
        next => simp at hsave
      next => simp at hsave
    next hrefused => exact absurd hsave (hrefused saved)
  · rintro ⟨prepared, drafted, hprepared, hdrafted, hmoved⟩
    simp only [hprepared, performAll, FileSystem.perform, hdrafted, hmoved]

/-- After a save the file is there and holds the text of the skills. -/
theorem text_of_save (hsave : store.save skills files = (.ok (), saved)) :
    saved.exists? store.path = true ∧
      saved.readText store.path = .ok (StoreDocument.ofSkills skills).text := by
  obtain ⟨prepared, drafted, -, hwrite, hrename⟩ := save_eq_ok_iff.mp hsave
  -- The text is written beside the file and takes its place only then.
  obtain ⟨draft, hdraft, hfile⟩ := FileSystem.leadsTo_of_write hwrite
  obtain ⟨place, hplace, hfile⟩ :=
    FileSystem.leadsTo_of_rename (hdraft.read hfile) hrename
  refine ⟨hplace.exists hfile, ?_⟩
  rw [FileSystem.readText, hplace.read hfile, ok_bind, fromUTF8?_toUTF8]

/-! ## The next save -/

/-- Directories that were made for a save are there for the next one. -/
theorem directories_again {prepared later : FileSystem}
    (hprepared : store.performAll store.directoryActions files =
      (.ok (), prepared))
    (hkeeps : prepared.KeepsDirectories later) :
    store.performAll store.directoryActions later = (.ok (), later) := by
  rw [directoryActions] at hprepared ⊢
  split at hprepared
  next directory hdirectory =>
    rw [performAll] at hprepared
    split at hprepared
    next made hmade =>
      obtain rfl : made = prepared := by simpa [performAll] using hprepared
      have hagain : later.perform (.makeDirectories directory) = .ok later :=
        FileSystem.makeDirectories_again hmade hkeeps
      simp only [performAll, hagain]
    next => simp at hprepared
  next => rfl

/-- The files are as a save left them. -/
def Saved (store : Store) (files : FileSystem) : Prop :=
  ∃ skills before, store.save skills before = (.ok (), files)

/-- A store that was saved can be saved again. -/
theorem Saved.save (h : store.Saved files) (more : List Skill) :
    ∃ saved, store.save more files = (.ok (), saved) := by
  obtain ⟨skills, before, hsave⟩ := h
  obtain ⟨prepared, drafted, hprepared, hwrite, hrename⟩ :=
    save_eq_ok_iff.mp hsave
  have hkeeps := (FileSystem.keeps_of_write hwrite).trans
    (FileSystem.keeps_of_rename hrename)
  have hdraft : files.Accepts store.draftPath :=
    ((FileSystem.accepts_of_write hwrite).write hwrite).rename hrename
  have hpath : files.Accepts store.path :=
    (FileSystem.accepts_of_rename hrename).rename hrename
  obtain ⟨redrafted, hrewrite⟩ :=
    hdraft.exists_write (StoreDocument.ofSkills more).text.toUTF8
  obtain ⟨resaved, hmove⟩ := (hpath.write hrewrite).exists_rename
    (FileSystem.read_written hrewrite)
  exact ⟨resaved, save_eq_ok_iff.mpr ⟨files, redrafted,
    directories_again hprepared hkeeps, hrewrite, hmove⟩⟩

end SkillEngine.Store
