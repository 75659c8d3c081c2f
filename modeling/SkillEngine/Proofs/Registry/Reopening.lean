import SkillEngine.Proofs.Registry.Operation
import SkillEngine.Proofs.Registry.Saving
import SkillEngine.Proofs.Registry.Store
import SkillEngine.Proofs.Skill.Canonical

/-!
# Opening a store again

After every operation that succeeds, a registry that is opened on the same
store is the registry that runs.  The run keeps an invariant: the skills stand
in the order of their ids, each under its own and with its free documents in
canonical form, and the store is either as it was when it was opened or holds
the text of just these skills.
-/

namespace SkillEngine

/-! ## What is loaded of a text -/

namespace Store

variable {store : Store} {files : FileSystem}

/-- The skills that the text of a file holds are loaded. -/
theorem load_of_text {skills found : List Skill}
    (hexists : files.exists? store.path = true)
    (htext : files.readText store.path =
      .ok (StoreDocument.ofSkills skills).text)
    (hread : StoreDocument.ofText (StoreDocument.ofSkills skills).text =
      .ok (StoreDocument.ofSkills found)) :
    store.load files = .ok found := by
  simp only [load, hexists, if_true, htext, skillsOf, hread]
  rfl

/-- From the text of skills what is left of them is loaded, or nothing when the
text is nested too deep. -/
theorem load_eq_of_text {skills : List Skill}
    (hexists : files.exists? store.path = true)
    (htext : files.readText store.path =
      .ok (StoreDocument.ofSkills skills).text)
    (hcanonical : ∀ skill ∈ skills, skill.Canonical)
    (hback : ∀ number ∈ (StoreDocument.ofSkills skills).numbers,
      number.ReadsBack) :
    store.load files =
      if (StoreDocument.ofSkills skills).depth ≤ Json.nestingLimit then
        .ok (skills.map Skill.recovered)
      else .error (store.unreadable .malformed) := by
  have hread : StoreDocument.ofText (StoreDocument.ofSkills skills).text =
      if (StoreDocument.ofSkills skills).depth ≤ Json.nestingLimit then
        .ok (StoreDocument.ofSkills (skills.map Skill.recovered))
      else .error .malformed := StoreDocument.ofText_text hcanonical hback
  split at hread
  next hdepth =>
    rw [if_pos hdepth]
    exact load_of_text hexists htext hread
  next hdepth =>
    rw [if_neg hdepth]
    simp only [load, hexists, if_true, htext, skillsOf, hread]

end Store

namespace Registry

/-! ## Skills under their own ids -/

/-- The skills stand in the order of their ids, each under its own and with its
free documents in canonical form. -/
structure Regular (skills : Dict Skill) : Prop where
  sorted : skills.Sorted
  keyed : ∀ entry ∈ skills, entry.2.id = entry.1
  canonical : ∀ entry ∈ skills, entry.2.Canonical

theorem regular_nil : Regular [] :=
  ⟨Dict.sorted_nil, by simp, by simp⟩

theorem Regular.insert {skills : Dict Skill} (h : Regular skills) {id : String}
    {skill : Skill} (hid : skill.id = id) (hcanonical : skill.Canonical) :
    Regular (skills.insert id skill) := by
  refine ⟨h.sorted.insert id skill, fun entry hentry => ?_, fun entry hentry => ?_⟩
  · rcases Dict.mem_of_mem_insert hentry with rfl | hentry
    · exact hid
    · exact h.keyed entry hentry
  · rcases Dict.mem_of_mem_insert hentry with rfl | hentry
    · exact hcanonical
    · exact h.canonical entry hentry

theorem Regular.erase {skills : Dict Skill} (h : Regular skills) (id : String) :
    Regular (skills.erase id) where
  sorted := h.sorted.erase id
  keyed entry hentry := h.keyed entry (List.mem_of_mem_filter hentry)
  canonical entry hentry := h.canonical entry (List.mem_of_mem_filter hentry)

theorem regular_byId {skills : List Skill}
    (hcanonical : ∀ skill ∈ skills, skill.Canonical) :
    Regular (byId skills) := by
  have hall : ∀ {dict : Dict Skill}, Regular dict →
      Regular (dict.insertAll (skills.map fun skill => (skill.id, skill))) := by
    induction skills with
    | nil => exact fun h => h
    | cons skill skills ih =>
        rw [List.forall_mem_cons] at hcanonical
        exact fun h => ih hcanonical.2 (h.insert rfl hcanonical.1)
  exact hall regular_nil

theorem Regular.addMissing {added : List Skill} {skills : Dict Skill}
    (h : Regular skills) (hcanonical : ∀ skill ∈ added, skill.Canonical) :
    Regular (Registry.addMissing added skills).2 := by
  induction added generalizing skills with
  | nil => exact h
  | cons skill added ih =>
      rw [List.forall_mem_cons] at hcanonical
      rw [Registry.addMissing]
      split
      · exact ih h hcanonical.2
      · exact ih (h.insert rfl hcanonical.1) hcanonical.2

theorem byId_values {skills : Dict Skill} (hsorted : skills.Sorted)
    (hkeyed : ∀ entry ∈ skills, entry.2.id = entry.1) :
    byId skills.values = skills := by
  have hentries : skills.values.map (fun skill => (skill.id, skill)) =
      skills := by
    rw [Dict.values, List.map_map]
    refine (List.map_inj_left.mpr fun entry hentry => ?_).trans (List.map_id _)
    exact Prod.ext (hkeyed entry hentry) rfl
  rw [byId, hentries, hsorted.ofList_eq]

theorem Regular.byId_values {skills : Dict Skill} (h : Regular skills) :
    byId skills.values = skills :=
  Registry.byId_values h.sorted h.keyed

theorem Regular.byId_recovered {skills : Dict Skill} (h : Regular skills) :
    byId (skills.values.map Skill.recovered) =
      skills.mapValues Skill.recovered := by
  have hvalues : skills.values.map Skill.recovered =
      (skills.mapValues Skill.recovered).values := by
    simp [Dict.values, Dict.mapValues]
  rw [hvalues]
  refine Registry.byId_values ?_ fun entry hentry => ?_
  · rw [Dict.Sorted, Dict.names_mapValues]
    exact h.sorted
  · obtain ⟨held, hheld, rfl⟩ := List.mem_map.mp hentry
    exact h.keyed held hheld

theorem Regular.canonical_values {skills : Dict Skill} (h : Regular skills) :
    ∀ skill ∈ skills.values, skill.Canonical := by
  intro skill hskill
  obtain ⟨entry, hentry, rfl⟩ := List.mem_map.mp hskill
  exact h.canonical entry hentry

/-! ## Operations keep the skills regular -/

/-- A skill that comes with the operation has its free documents in canonical
form.  An imported document may have any form. -/
def Operation.Canonical : Operation → Prop
  | .register skill => skill.Canonical
  | .importDocument _ | .unregister _ | .setEnabled _ _ | .registerLibrary =>
    True

theorem Regular.planRegister {skills changed : Dict Skill}
    (h : Regular skills) {skill : Skill} (hcanonical : skill.Canonical)
    (hplan : Registry.planRegister skills skill = .ok (some changed)) :
    Regular changed := by
  rw [Registry.planRegister] at hplan
  split at hplan
  · simp at hplan
  · obtain rfl : skills.insert skill.id skill = changed := by
      simpa using hplan
    exact h.insert rfl hcanonical

theorem Regular.plan {skills changed : Dict Skill} (h : Regular skills)
    {operation : Operation} (hcanonical : operation.Canonical)
    (hplan : Registry.plan skills operation = .ok (some changed)) :
    Regular changed := by
  cases operation with
  | register skill => exact h.planRegister hcanonical hplan
  | importDocument document =>
      rw [Registry.plan] at hplan
      split at hplan
      · simp at hplan
      · split at hplan
        · simp at hplan
        next skill hread =>
          exact h.planRegister (Skill.codec_yields _ _ skill trivial hread) hplan
  | unregister id =>
      rw [Registry.plan] at hplan
      split at hplan
      · simp at hplan
      · split at hplan
        · simp at hplan
        · obtain rfl : skills.erase id = changed := by simpa using hplan
          exact h.erase id
  | setEnabled id enabled =>
      rw [Registry.plan] at hplan
      split at hplan
      · simp at hplan
      next skill hfound =>
        obtain rfl : skills.insert id { skill with enabled := enabled } =
            changed := by simpa using hplan
        have hentry := Dict.mem_of_find? hfound
        exact h.insert (h.keyed _ hentry) (h.canonical _ hentry)
  | registerLibrary =>
      rw [Registry.plan] at hplan
      split at hplan
      · simp at hplan
      · obtain rfl : (Registry.addMissing SkillLibrary.skills skills).2 =
            changed := by simpa using hplan
        exact h.addMissing SkillLibrary.canonical

/-! ## Runs of operations that succeed -/

/-- The states to which a registry that was opened on a store comes by
operations that succeed, while nobody else changes the files. -/
inductive Reached (store : Store) : Registry → FileSystem → Prop
  | opened {registry : Registry} {files : FileSystem}
      (hopen : openStore store files = .ok registry) :
      Reached store registry files
  | done {registry : Registry} {files : FileSystem} (operation : Operation)
      (hreached : Reached store registry files)
      (hcanonical : operation.Canonical)
      (hdone : (registry.perform files operation).outcome = .ok ()) :
      Reached store (registry.perform files operation).registry
        (registry.perform files operation).files

/-- What stays true while operations succeed: the store is as it was opened, or
holds the text of the skills of the registry. -/
structure Persisted (store : Store) (registry : Registry)
    (files : FileSystem) : Prop where
  stored : registry.store = some store
  regular : Regular registry.skills
  written : openStore store files = .ok registry ∨
    files.exists? store.path = true ∧
      files.readText store.path =
        .ok (StoreDocument.ofSkills registry.list).text

theorem canonical_of_load {store : Store} {files : FileSystem}
    {skills : List Skill} (hload : store.load files = .ok skills) :
    ∀ skill ∈ skills, skill.Canonical := by
  rw [Store.load] at hload
  split at hload
  · split at hload
    next text _ =>
      rw [Store.skillsOf] at hload
      split at hload
      · simp at hload
      next document hread =>
        split at hload
        · simp at hload
        · obtain rfl := Except.ok.inj hload
          exact StoreDocument.canonical_of_ofText hread
    next => simp at hload
  · obtain rfl := Except.ok.inj hload
    simp

theorem persisted_of_open {store : Store} {registry : Registry}
    {files : FileSystem} (hopen : openStore store files = .ok registry) :
    Persisted store registry files := by
  obtain ⟨skills, hload, rfl⟩ := exceptMap_eq_ok_iff.mp hopen
  exact ⟨rfl, regular_byId (canonical_of_load hload), .inl hopen⟩

/-- An operation that succeeds changes nothing, or it changes the skills as
planned and they are saved. -/
theorem perform_ok {store : Store} {registry : Registry} {files : FileSystem}
    {operation : Operation} (hstored : registry.store = some store)
    (hdone : (registry.perform files operation).outcome = .ok ()) :
    ((registry.perform files operation).registry = registry ∧
      (registry.perform files operation).files = files) ∨
    ∃ changed, plan registry.skills operation = .ok (some changed) ∧
      (registry.perform files operation).registry =
        { registry with skills := changed } ∧
      store.save changed.values files =
        (.ok (), (registry.perform files operation).files) := by
  simp only [perform_eq] at hdone ⊢
  cases hplan : plan registry.skills operation with
  | error failure => simp [hplan, settle, refuse] at hdone
  | ok change =>
      cases change with
      | none => exact .inl ⟨rfl, rfl⟩
      | some changed =>
          simp only [hplan, settle, persist, hstored] at hdone
          cases hsaved : store.save changed.values files with
          | mk outcome saved =>
              cases outcome with
              | error failure => simp [hsaved, Except.map] at hdone
              | ok done =>
                  refine .inr ⟨changed, rfl, ?_⟩
                  simp [settle, persist, hstored, hsaved]

theorem Persisted.perform {store : Store} {registry : Registry}
    {files : FileSystem} (h : Persisted store registry files)
    {operation : Operation} (hcanonical : operation.Canonical)
    (hdone : (registry.perform files operation).outcome = .ok ()) :
    Persisted store (registry.perform files operation).registry
      (registry.perform files operation).files := by
  rcases perform_ok h.stored hdone with
    ⟨hregistry, hfiles⟩ | ⟨changed, hplan, hregistry, hsave⟩
  · rwa [hregistry, hfiles]
  · rw [hregistry]
    exact ⟨h.stored, h.regular.plan hcanonical hplan,
      .inr (Store.text_of_save hsave)⟩

theorem Reached.persisted {store : Store} {registry : Registry}
    {files : FileSystem} (h : Reached store registry files) :
    Persisted store registry files := by
  induction h with
  | opened hopen => exact persisted_of_open hopen
  | done operation _ hcanonical hdone ih => exact ih.perform hcanonical hdone

/-- From the text of a registry what is left of its skills is opened, or nothing
when the text is nested too deep. -/
theorem openStore_of_text {store : Store} {registry : Registry}
    {files : FileSystem} (hregular : Regular registry.skills)
    (hexists : files.exists? store.path = true)
    (htext : files.readText store.path =
      .ok (StoreDocument.ofSkills registry.list).text)
    (hback : ∀ number ∈ (StoreDocument.ofSkills registry.list).numbers,
      number.ReadsBack) :
    openStore store files =
      if (StoreDocument.ofSkills registry.list).depth ≤ Json.nestingLimit then
        .ok ⟨registry.skills.mapValues Skill.recovered, some store⟩
      else .error (store.unreadable .malformed) := by
  rw [openStore, Store.load_eq_of_text hexists htext hregular.canonical_values
    hback]
  split
  · rw [list, Except.map, hregular.byId_recovered]
  · rfl

/-- At every moment of a run a registry that is opened on the same store is the
registry that runs, when its skills can be stored and their document is nested
no deeper than the reader allows. -/
theorem openStore_of_reached {store : Store} {registry : Registry}
    {files : FileSystem} (hreached : Reached store registry files)
    (hstorable : ∀ skill ∈ registry.list, skill.Storable)
    (hback : ∀ number ∈ (StoreDocument.ofSkills registry.list).numbers,
      number.ReadsBack)
    (hdepth : (StoreDocument.ofSkills registry.list).depth ≤
      Json.nestingLimit) :
    openStore store files = .ok registry := by
  -- Nothing has been saved yet, or the file holds the text of these skills.
  obtain ⟨hstored, hregular, hopen | ⟨hexists, htext⟩⟩ := hreached.persisted
  · exact hopen
  · have hcanonical : ∀ skill ∈ registry.list, skill.Canonical := by
      intro skill hskill
      obtain ⟨entry, hentry, rfl⟩ := List.mem_map.mp hskill
      exact hregular.canonical entry hentry
    have hread := (StoreDocument.ofText_text_eq_ok_iff hcanonical hback).mpr
      ⟨hstorable, hdepth⟩
    have hload := Store.load_of_text hexists htext hread
    obtain ⟨skills, _⟩ := registry
    obtain rfl := hstored
    rw [openStore, hload]
    simp only [Except.map, list, hregular.byId_values]

/-- A prompt that was registered and disabled is there, disabled, when the
store is opened again. -/
theorem warm_reopened :
    let registry : Registry := ⟨[], some ⟨"skills.json"⟩⟩
    let added := registry.perform .empty (.register warm)
    let disabled := added.registry.perform added.files (.setEnabled "warm" false)
    openStore ⟨"skills.json"⟩ .empty = .ok registry ∧
      added.outcome = .ok () ∧ disabled.outcome = .ok () ∧
      disabled.registry.list = [{ warm with enabled := false }] ∧
      openStore ⟨"skills.json"⟩ disabled.files = .ok disabled.registry := by
  intro registry added disabled
  have hopen : openStore ⟨"skills.json"⟩ .empty = .ok registry := rfl
  have hadded : added.outcome = .ok () := rfl
  have hdisabled : disabled.outcome = .ok () := rfl
  have hlist : disabled.registry.list = [{ warm with enabled := false }] := rfl
  have hreached := Reached.done (.setEnabled "warm" false)
    (.done (.register warm) (.opened hopen) warm_canonical hadded)
    trivial hdisabled
  refine ⟨hopen, hadded, hdisabled, hlist,
    openStore_of_reached hreached ?_ ?_ ?_⟩
  · intro skill hskill
    obtain rfl := List.mem_singleton.mp (hlist ▸ hskill)
    exact ⟨warm_storable.temperatures, warm_storable.bounds,
      warm_storable.defaults⟩
  · exact warm_numbers_readBack
  · decide

end Registry

end SkillEngine
