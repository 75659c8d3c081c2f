import SkillEngine.Proofs.Registry.Change
import SkillEngine.Proofs.Registry.Identity
import SkillEngine.Proofs.Registry.Saving

/-!
# Ids that a store lacks

A store lacks an id when its file is there and no skill is read from it under
the id.  Nothing is said of what else is read, or whether anything is.  Saving
skills without the id keeps this, also where it fails half-way, and so does
every operation that brings no skill with the id.
-/

namespace SkillEngine

namespace Store

variable {store : Store} {id : String} {files other : FileSystem}
  {skills : List Skill}

/-! ## The content of a store file -/

/-- No skill with the id is read from the content of a file. -/
def Withholds (store : Store) (id : String) (content : ByteArray) : Prop :=
  ∀ text skills, String.fromUTF8? content = some text →
    store.skillsOf text = .ok skills → ∀ skill ∈ skills, skill.id ≠ id

theorem withholds_of_text {written : String}
    (h : ∀ document, StoreDocument.ofText written = .ok document →
      ∀ skill ∈ document.skills, skill.id ≠ id) :
    store.Withholds id written.toUTF8 := by
  intro text skills htext hskills
  rw [fromUTF8?_toUTF8] at htext
  obtain rfl := Option.some.inj htext
  rw [skillsOf] at hskills
  split at hskills
  · simp at hskills
  next document hread =>
    split at hskills
    · simp at hskills
    · obtain rfl := Except.ok.inj hskills
      exact h document hread

/-- The text of skills without the id does not bring it about. -/
theorem withholds_skills (hskills : ∀ skill ∈ skills, skill.id ≠ id) :
    store.Withholds id (StoreDocument.ofSkills skills).text.toUTF8 := by
  refine withholds_of_text fun document hread skill hskill => ?_
  have hids : document.skills.map (·.id) = skills.map (·.id) :=
    StoreDocument.ids_of_ofText hread
  have hmem : skill.id ∈ skills.map (·.id) :=
    hids ▸ List.mem_map_of_mem hskill
  obtain ⟨written, hwritten, hid⟩ := List.mem_map.mp hmem
  exact hid ▸ hskills written hwritten

/-- From the text of a single skill no skills are read. -/
theorem withholds_document (skill : Skill) :
    store.Withholds id (Skill.codec.document skill).pretty.toUTF8 := by
  obtain ⟨error, herror⟩ := StoreDocument.ofText_skill skill
  refine withholds_of_text fun document hread => ?_
  rw [herror] at hread
  cases hread

/-! ## The file of a store -/

/-- There is a store file, and no skill with the id is read from it. -/
def Lacks (store : Store) (id : String) (files : FileSystem) : Prop :=
  ∃ content, files.read store.path = .ok content ∧ store.Withholds id content

theorem Lacks.write (h : store.Lacks id files) {path : String}
    {written : ByteArray} (hwritten : store.Withholds id written)
    (hwrite : files.write path written = .ok other) :
    store.Lacks id other := by
  obtain ⟨content, hread, hcontent⟩ := h
  rcases FileSystem.read_of_write hread hwrite with hold | hnew
  · exact ⟨content, hold, hcontent⟩
  · exact ⟨written, hnew, hwritten⟩

theorem Lacks.extends (h : store.Lacks id files)
    (hextends : FileSystem.Extends files other) : store.Lacks id other := by
  obtain ⟨content, hread, hcontent⟩ := h
  exact ⟨content, hextends.read hread, hcontent⟩

theorem Lacks.perform_directories (h : store.Lacks id files) :
    store.Lacks id (store.performAll store.directoryActions files).2 := by
  rw [directoryActions]
  split
  next directory _ =>
    cases hmake : files.perform (.makeDirectories directory) with
    | error fault =>
        simpa only [performAll, hmake] using
          h.extends (FileSystem.extends_leftBy files _)
    | ok made =>
        simpa only [performAll, hmake] using
          h.extends (FileSystem.extends_makeDirectories hmake)
  next => exact h

/-- Saving skills without the id keeps it out of the store, whether or not the
save succeeds. -/
theorem Lacks.save (h : store.Lacks id files)
    (hskills : ∀ skill ∈ skills, skill.id ≠ id) :
    store.Lacks id (store.save skills files).2 := by
  have hprepared := h.perform_directories
  rw [Store.save, saveActions, performAll_append]
  generalize store.performAll store.directoryActions files = prepared
    at hprepared
  obtain ⟨outcome, prepared⟩ := prepared
  cases outcome with
  | error failure => exact hprepared
  | ok done =>
      cases hwrite : prepared.perform (.write store.draftPath
          (StoreDocument.ofSkills skills).text.toUTF8) with
      | error fault =>
          simpa only [performAll, hwrite] using
            hprepared.extends (FileSystem.extends_leftBy prepared _)
      | ok drafted =>
          have hdrafted : store.Lacks id drafted :=
            hprepared.write (withholds_skills hskills) hwrite
          cases hrename : drafted.perform
              (.rename store.draftPath store.path) with
          | error fault =>
              simpa only [performAll, hwrite, hrename] using
                hdrafted.extends (FileSystem.extends_leftBy drafted _)
          | ok moved =>
              -- The draft has taken the place of the file.
              simp only [performAll, hwrite, hrename]
              exact ⟨_, FileSystem.read_renamed
                (FileSystem.read_written hwrite) hrename,
                withholds_skills hskills⟩

/-- After a save that succeeded the store lacks what was not saved. -/
theorem lacks_of_save (hskills : ∀ skill ∈ skills, skill.id ≠ id)
    (hsave : store.save skills files = (.ok (), other)) :
    store.Lacks id other := by
  obtain ⟨-, htext⟩ := text_of_save hsave
  rw [FileSystem.readText] at htext
  obtain ⟨content, hread, htext⟩ := bind_eq_ok_iff.mp htext
  refine ⟨content, hread, fun text found hcontent hfound => ?_⟩
  rw [hcontent] at htext
  obtain rfl := Except.ok.inj htext
  exact withholds_skills hskills _ found (fromUTF8?_toUTF8 _) hfound

theorem Lacks.load (h : store.Lacks id files)
    (hload : store.load files = .ok skills) : ∀ skill ∈ skills, skill.id ≠ id := by
  obtain ⟨content, hread, hcontent⟩ := h
  rw [Store.load] at hload
  split at hload
  · split at hload
    next text htext =>
      rw [FileSystem.readText, hread, ok_bind] at htext
      split at htext
      next found hfound =>
        obtain rfl := Except.ok.inj htext
        exact hcontent found skills hfound hload
      next => simp at htext
    next => simp at hload
  · obtain rfl := Except.ok.inj hload
    simp

end Store

/-! ## Registries of the store -/

namespace Registry

variable {store : Store} {id : String} {files : FileSystem}
  {registry : Registry}

/-- The registry is kept in the store and has no skill under the id. -/
structure Misses (registry : Registry) (store : Store) (id : String) : Prop where
  stored : registry.store = some store
  indexed : Indexed registry.skills
  missing : registry.skills.find? id = none

theorem Misses.ne_id (h : registry.Misses store id) :
    ∀ skill ∈ registry.list, skill.id ≠ id := by
  rintro skill hskill rfl
  rw [h.indexed.mem_list_iff, h.missing] at hskill
  cases hskill

theorem misses_of_open (hlacks : store.Lacks id files)
    (hopen : openStore store files = .ok registry) :
    registry.Misses store id := by
  have hindexed := (Opened.stored hopen).indexed
  obtain ⟨skills, hload, rfl⟩ := exceptMap_eq_ok_iff.mp hopen
  refine ⟨rfl, hindexed, ?_⟩
  rw [find?_byId, List.getLast?_eq_none_iff, List.filter_eq_nil_iff]
  intro skill hskill
  simpa using hlacks.load hload skill hskill

/-- The operation brings no skill with the id. -/
structure Operation.Spares (operation : Operation) (id : String) : Prop where
  brought : ∀ skill, operation.Brings skill → skill.id ≠ id
  library : operation = .registerLibrary →
    ∀ skill ∈ SkillLibrary.skills, skill.id ≠ id

theorem Misses.change (h : registry.Misses store id) {operation : Operation}
    {changed : Dict Skill} (hspares : operation.Spares id)
    (hchange : Change registry.skills operation changed) :
    Misses { registry with skills := changed } store id := by
  refine ⟨h.stored, h.indexed.change hchange, ?_⟩
  cases hchange with
  | added hbrings hvalid hnew =>
      rw [Dict.find?_insert_of_ne (hspares.brought _ hbrings).symm, h.missing]
  | removed hfound hdisabled =>
      rw [Dict.find?_erase, h.missing, ite_self]
  | switched hfound enabled =>
      rw [Dict.find?_insert_of_ne, h.missing]
      rintro rfl
      rw [h.missing] at hfound
      cases hfound
  | completed =>
      rw [find?_addMissing_eq, h.missing, Option.none_or,
        List.find?_eq_none]
      intro skill hskill
      simpa using hspares.library rfl skill hskill

/-- An operation that brings no skill with the id leaves it out of the registry
and out of the store, however it ends. -/
theorem Misses.perform (h : registry.Misses store id)
    (hlacks : store.Lacks id files) {operation : Operation}
    (hspares : operation.Spares id) :
    let done := registry.perform files operation
    done.registry.Misses store id ∧ store.Lacks id done.files := by
  intro done
  have hdone : done =
      registry.settle files (plan registry.skills operation) :=
    registry.perform_eq files operation
  cases hplan : plan registry.skills operation with
  | error failure =>
      rw [hdone, hplan]
      exact ⟨h, hlacks⟩
  | ok change =>
      cases change with
      | none =>
          rw [hdone, hplan]
          exact ⟨h, hlacks⟩
      | some changed =>
          have hchanged := h.change hspares (change_of_plan hplan)
          have hsettled : done =
              persist { registry with skills := changed } files () := by
            rw [hdone, hplan]
            rfl
          constructor
          · rw [hsettled, registry_persist]
            exact hchanged
          · have hfiles : done.files = (store.save changed.values files).2 := by
              rw [hsettled, persist]
              simp [h.stored]
            rw [hfiles]
            exact hlacks.save hchanged.ne_id

/-- After a removal that succeeded the id is out of the store. -/
theorem lacks_of_unregister (hindexed : Indexed registry.skills)
    (hstored : registry.store = some store) {removed : Skill}
    (hdone : (registry.unregister files id).outcome = .ok removed) :
    store.Lacks id (registry.unregister files id).files := by
  rw [unregister] at hdone ⊢
  split at hdone
  next => simp [refuse] at hdone
  next skill hfound =>
    split at hdone
    next => simp [refuse] at hdone
    next hdisabled =>
      simp only [hdisabled]
      have hchange : Change registry.skills (.unregister id)
          (registry.skills.erase id) :=
        .removed hfound (by simpa using hdisabled)
      have herased :
          Misses { registry with skills := registry.skills.erase id } store id :=
        ⟨hstored, hindexed.change hchange, by
          rw [Dict.find?_erase, if_pos rfl]⟩
      simp only [persist, hstored] at hdone ⊢
      obtain ⟨saved, hsaved, -⟩ := exceptMap_eq_ok_iff.mp hdone
      exact Store.lacks_of_save herased.ne_id (Prod.ext hsaved rfl)

end Registry

end SkillEngine
