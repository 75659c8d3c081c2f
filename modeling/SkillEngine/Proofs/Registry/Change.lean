import SkillEngine.Proofs.Registry.Survival

/-!
# What operations change

`Change` lists what an operation can do to the registered skills: add one that
is valid and new, take one away that is disabled, switch one on or off, or add
what is missing of the library.  It says nothing about saving, because a save
that fails does not take a change back.

Everything about single operations is read off these four cases.  What holds at
every moment of a manager follows along `Evolves`, in which the operations may
succeed, be refused or fail to save, and the files may be any at each of them.
-/

namespace SkillEngine

namespace Registry

/-! ## The changes of single operations -/

/-- The operation brings the skill with it. -/
def Operation.Brings (skill : Skill) : Operation → Prop
  | .register added => added = skill
  | .importDocument document => Skill.codec.read document = .ok skill
  | .unregister _ | .setEnabled _ _ | .registerLibrary => False

theorem Operation.Brings.target {operation : Operation} {skill : Skill}
    (h : operation.Brings skill) : operation.target? = some skill.id := by
  cases operation with
  | register added => exact congrArg (fun given => some given.id) h
  | importDocument document =>
      have hread : Skill.codec.read document = .ok skill := h
      rw [target?, hread]
      rfl
  | unregister id => exact h.elim
  | setEnabled id enabled => exact h.elim
  | registerLibrary => exact h.elim

/-- What an operation can do to the registered skills. -/
inductive Change (skills : Dict Skill) : Operation → Dict Skill → Prop where
  | added {operation : Operation} {skill : Skill}
      (hbrings : operation.Brings skill) (hvalid : skill.violations = [])
      (hnew : skills.find? skill.id = none) :
      Change skills operation (skills.insert skill.id skill)
  | removed {id : String} {skill : Skill}
      (hfound : skills.find? id = some skill)
      (hdisabled : skill.enabled = false) :
      Change skills (.unregister id) (skills.erase id)
  | switched {id : String} {skill : Skill}
      (hfound : skills.find? id = some skill) (enabled : Bool) :
      Change skills (.setEnabled id enabled)
        (skills.insert id { skill with enabled := enabled })
  | completed :
      Change skills .registerLibrary
        (addMissing SkillLibrary.skills skills).2

theorem change_of_planRegister {skills changed : Dict Skill}
    {operation : Operation} {skill : Skill} (hbrings : operation.Brings skill)
    (hplan : planRegister skills skill = .ok (some changed)) :
    Change skills operation changed := by
  rw [planRegister, refusal?] at hplan
  by_cases hvalid : skill.violations = []
  · by_cases hhas : skills.has skill.id
    · simp [hvalid, hhas] at hplan
    · obtain rfl : skills.insert skill.id skill = changed := by
        simpa [hvalid, hhas] using hplan
      exact .added hbrings hvalid (by simpa [Dict.has] using hhas)
  · simp [hvalid] at hplan

theorem change_of_plan {skills changed : Dict Skill} {operation : Operation}
    (hplan : plan skills operation = .ok (some changed)) :
    Change skills operation changed := by
  cases operation with
  | register skill => exact change_of_planRegister rfl hplan
  | importDocument document =>
      rw [plan] at hplan
      split at hplan
      · simp at hplan
      · split at hplan
        · simp at hplan
        next skill hread => exact change_of_planRegister hread hplan
  | unregister id =>
      rw [plan] at hplan
      split at hplan
      · simp at hplan
      next skill hfound =>
        split at hplan
        · simp at hplan
        next hdisabled =>
          obtain rfl : skills.erase id = changed := by simpa using hplan
          exact .removed hfound (by simpa using hdisabled)
  | setEnabled id enabled =>
      rw [plan] at hplan
      split at hplan
      · simp at hplan
      next skill hfound =>
        obtain rfl : skills.insert id { skill with enabled := enabled } =
            changed := by simpa using hplan
        exact .switched hfound enabled
  | registerLibrary =>
      rw [plan] at hplan
      split at hplan
      · simp at hplan
      · obtain rfl : (addMissing SkillLibrary.skills skills).2 = changed := by
          simpa using hplan
        exact .completed

theorem registry_persist {α : Type} (registry : Registry) (files : FileSystem)
    (value : α) : (registry.persist files value).registry = registry := by
  rw [persist]
  split <;> rfl

/-- Whether or not it can be saved, an operation leaves the registry alone or
makes its change. -/
theorem perform_change (registry : Registry) (files : FileSystem)
    (operation : Operation) :
    (registry.perform files operation).registry = registry ∨
      ∃ changed, Change registry.skills operation changed ∧
        (registry.perform files operation).registry =
          { registry with skills := changed } := by
  rw [perform_eq]
  cases hplan : plan registry.skills operation with
  | error failure => exact .inl rfl
  | ok change =>
      cases change with
      | none => exact .inl rfl
      | some changed =>
          exact .inr ⟨changed, change_of_plan hplan, registry_persist _ _ _⟩

namespace Change

variable {skills changed : Dict Skill} {operation : Operation}

/-- No other entry is changed than the one that the operation names. -/
theorem find?_of_ne (h : Change skills operation changed)
    (hlibrary : operation ≠ .registerLibrary) {id : String}
    (htarget : operation.target? ≠ some id) :
    changed.find? id = skills.find? id := by
  cases h with
  | added hbrings hvalid hnew =>
      refine Dict.find?_insert_of_ne ?_ _ _
      rintro rfl
      exact htarget hbrings.target
  | removed hfound hdisabled =>
      rw [Dict.find?_erase, if_neg]
      rintro rfl
      exact htarget rfl
  | switched hfound enabled =>
      refine Dict.find?_insert_of_ne ?_ _ _
      rintro rfl
      exact htarget rfl
  | completed => exact absurd rfl hlibrary

/-- A skill that is enabled stays, whatever else becomes of it. -/
theorem has_of_enabled (h : Change skills operation changed) {id : String}
    {skill : Skill} (hfound : skills.find? id = some skill)
    (henabled : skill.enabled = true) : changed.has id = true := by
  have hhas : skills.has id = true := Dict.has_iff_exists.mpr ⟨skill, hfound⟩
  cases h with
  | added hbrings hvalid hnew => simp [hhas]
  | @removed other held hheld hdisabled =>
      have hne : id ≠ other := by
        rintro rfl
        obtain rfl := Option.some.inj (hfound.symm.trans hheld)
        simp [henabled] at hdisabled
      rw [Dict.has, Dict.find?_erase, if_neg hne, ← Dict.has, hhas]
  | switched hheld enabled => simp [hhas]
  | completed =>
      rw [Dict.has, find?_addMissing_eq, hfound]
      rfl

/-- What holds of valid skills that are brought, and does not depend on the
switch, holds of all entries when it held of them before. -/
theorem forall_entries {P : String → Skill → Prop}
    (hbrought : ∀ skill : Skill, skill.violations = [] → P skill.id skill)
    (hswitch : ∀ id (skill : Skill) (enabled : Bool),
      P id skill → P id { skill with enabled := enabled })
    (h : Change skills operation changed)
    (hall : ∀ entry ∈ skills, P entry.1 entry.2) :
    ∀ entry ∈ changed, P entry.1 entry.2 := by
  cases h with
  | added hbrings hvalid hnew =>
      exact forall_insert hall (hbrought _ hvalid)
  | removed hfound hdisabled =>
      intro entry hentry
      exact hall entry (List.mem_of_mem_filter hentry)
  | switched hfound enabled =>
      exact forall_insert hall
        (hswitch _ _ enabled (hall _ (Dict.mem_of_find? hfound)))
  | completed =>
      refine forall_addMissing hall fun skill hskill => ?_
      exact hbrought skill (SkillLibrary.valid skill hskill)

theorem sorted (h : Change skills operation changed) (hsorted : skills.Sorted) :
    changed.Sorted := by
  cases h with
  | added hbrings hvalid hnew => exact hsorted.insert _ _
  | removed hfound hdisabled => exact hsorted.erase _
  | switched hfound enabled => exact hsorted.insert _ _
  | completed => exact sorted_addMissing hsorted

end Change

/-! ## Every moment of a manager -/

/-- A registry with which a manager begins: without skills and without a store,
or as a store holds it. -/
inductive Opened : Registry → Prop where
  | empty : Opened .empty
  | stored {store : Store} {files : FileSystem} {registry : Registry}
      (hopen : openStore store files = .ok registry) : Opened registry

/-- What becomes of a registry by operations, whatever the files are at each
and however it ends. -/
inductive Evolves (first : Registry) : Registry → Prop where
  | start : Evolves first first
  | after {registry : Registry} (h : Evolves first registry)
      (operation : Operation) (files : FileSystem) :
      Evolves first (registry.perform files operation).registry

/-- The skills stand in the order of their ids, each under its own. -/
structure Indexed (skills : Dict Skill) : Prop where
  sorted : skills.Sorted
  keyed : ∀ entry ∈ skills, entry.2.id = entry.1

theorem Indexed.change {skills changed : Dict Skill} {operation : Operation}
    (h : Indexed skills) (hchange : Change skills operation changed) :
    Indexed changed where
  sorted := hchange.sorted h.sorted
  keyed := hchange.forall_entries (P := fun id skill => skill.id = id)
    (fun _ _ => rfl) (fun _ _ _ hid => hid) h.keyed

theorem Opened.indexed {registry : Registry} (h : Opened registry) :
    Indexed registry.skills := by
  cases h with
  | empty =>
      refine ⟨Dict.sorted_nil, ?_⟩
      intro entry hentry
      exact absurd hentry List.not_mem_nil
  | stored hopen =>
      have hregular := (persisted_of_open hopen).regular
      exact ⟨hregular.sorted, hregular.keyed⟩

theorem Evolves.indexed {first registry : Registry}
    (h : Evolves first registry) (hopened : Opened first) :
    Indexed registry.skills := by
  induction h with
  | start => exact hopened.indexed
  | @after registry _ operation files ih =>
      rcases registry.perform_change files operation with
        hsame | ⟨changed, hchange, hregistry⟩
      · rwa [hsame]
      · rw [hregistry]
        exact ih.change hchange

theorem Evolves.valid {registry : Registry} (h : Evolves .empty registry) :
    ∀ entry ∈ registry.skills, entry.2.violations = [] := by
  induction h with
  | start => exact fun _ hentry => absurd hentry List.not_mem_nil
  | @after registry _ operation files ih =>
      rcases registry.perform_change files operation with
        hsame | ⟨changed, hchange, hregistry⟩
      · rwa [hsame]
      · rw [hregistry]
        exact hchange.forall_entries
          (P := fun _ skill => skill.violations = [])
          (fun _ hvalid => hvalid) (fun _ _ _ hvalid => hvalid) ih

namespace Indexed

variable {registry : Registry} (h : Indexed registry.skills)

include h

theorem ids_list : registry.list.map (·.id) = registry.skills.names := by
  rw [list, Dict.values, Dict.names, List.map_map]
  exact List.map_congr_left h.keyed

theorem mem_list_iff {skill : Skill} :
    skill ∈ registry.list ↔ registry.skills.find? skill.id = some skill := by
  rw [Dict.find?_eq_some_iff h.sorted.nodup, list, Dict.values, List.mem_map]
  constructor
  · rintro ⟨⟨id, held⟩, hentry, rfl⟩
    have hid : held.id = id := h.keyed _ hentry
    rwa [hid]
  · intro hentry
    exact ⟨_, hentry, rfl⟩

end Indexed

/-! ## Registering the library -/

/-- The ids of the library that are not taken, in its order. -/
def absentIds (registry : Registry) : List String :=
  (SkillLibrary.skills.map (·.id)).filter fun id => !registry.skills.has id

theorem registerLibrary_of_absent {registry : Registry}
    (h : registry.absentIds ≠ []) (files : FileSystem) :
    registry.registerLibrary files =
      persist { registry with
        skills := (addMissing SkillLibrary.skills registry.skills).2 } files
        registry.absentIds := by
  have hids : (addMissing SkillLibrary.skills registry.skills).1 =
      registry.absentIds := ids_addMissing SkillLibrary.nodup_ids
  rw [registerLibrary_eq]
  simp [hids, h]

theorem registerLibrary_of_present {registry : Registry}
    (h : registry.absentIds = []) (files : FileSystem) :
    addMissing SkillLibrary.skills registry.skills = ([], registry.skills) ∧
      registry.registerLibrary files = ⟨.ok [], registry, files⟩ := by
  have hpresent : addMissing SkillLibrary.skills registry.skills =
      ([], registry.skills) := by
    refine addMissing_of_has fun skill hskill => ?_
    have hall := List.filter_eq_nil_iff.mp h skill.id
      (List.mem_map.mpr ⟨skill, hskill, rfl⟩)
    simpa using hall
  refine ⟨hpresent, ?_⟩
  rw [registerLibrary_eq, hpresent]
  rfl

theorem registry_registerLibrary (registry : Registry) (files : FileSystem) :
    (registry.registerLibrary files).registry = { registry with
      skills := (addMissing SkillLibrary.skills registry.skills).2 } := by
  by_cases h : registry.absentIds = []
  · obtain ⟨hpresent, hran⟩ := registerLibrary_of_present h files
    rw [hran, hpresent]
  · rw [registerLibrary_of_absent h, registry_persist]

/-! ## What governs the operations -/

theorem perform_of_has {registry : Registry} {operation : Operation}
    {skill : Skill} (hbrings : operation.Brings skill)
    (hhas : registry.skills.has skill.id = true) (files : FileSystem) :
    ∃ failure, registry.perform files operation =
      registry.refuse files failure := by
  have hplanned : ∃ failure,
      planRegister registry.skills skill = .error failure := by
    rw [planRegister, refusal?]
    by_cases hvalid : skill.violations = []
    · exact ⟨.alreadyExists skill.id, by simp [hvalid, hhas]⟩
    · exact ⟨.invalid skill.validate, by simp [hvalid]⟩
  obtain ⟨failure, hfailure⟩ : ∃ failure,
      plan registry.skills operation = .error failure := by
    cases operation with
    | register added =>
        obtain rfl : added = skill := hbrings
        exact hplanned
    | importDocument document =>
        have hread : Skill.codec.read document = .ok skill := hbrings
        rw [plan]
        split
        · exact ⟨_, rfl⟩
        · rw [hread]
          exact hplanned
    | unregister id => exact hbrings.elim
    | setEnabled id enabled => exact hbrings.elim
    | registerLibrary => exact hbrings.elim
  refine ⟨failure, ?_⟩
  rw [perform_eq, hfailure]
  rfl

theorem registry_setEnabled (registry : Registry) (files : FileSystem)
    (id : String) (enabled : Bool) (other : String) :
    (registry.perform files (.setEnabled id enabled)).registry.skills.find?
        other =
      if other = id then
        (registry.skills.find? id).map fun skill =>
          { skill with enabled := enabled }
      else registry.skills.find? other := by
  rw [perform, setEnabled]
  cases hfound : registry.skills.find? id with
  | none =>
      by_cases hother : other = id
      · rw [if_pos hother, hother]
        exact hfound
      · rw [if_neg hother]
        rfl
  | some skill =>
      simp only [registry_persist]
      exact Dict.find?_insert _ _ _ _

theorem outcome_persist {α : Type} (registry : Registry) (files : FileSystem)
    (value : α) :
    (registry.persist files value).outcome = .ok value ∨
      ∃ store failure, registry.store = some store ∧
        (store.save registry.list files).1 = .error failure ∧
        (registry.persist files value).outcome = .error failure := by
  rw [persist]
  cases registry.store with
  | none => exact .inl rfl
  | some store =>
      have hlist : registry.list = registry.skills.values := rfl
      cases hsaved : (store.save registry.skills.values files).1 with
      | ok done =>
          left
          simp [hsaved, Except.map]
      | error failure =>
          exact .inr ⟨store, failure, rfl, by rw [hlist, hsaved],
            by simp [hsaved, Except.map]⟩

/-- What holds of a registry at a moment, and what each operation does to it
then, whatever the files are and whether or not the operation succeeds. -/
structure Governed (registry : Registry) : Prop where
  /-- Every skill stands under its own id. -/
  keyed : ∀ id skill,
    registry.skills.find? id = some skill → skill.id = id
  /-- The list is strictly increasing by id. -/
  increasing : (registry.list.map (·.id)).Pairwise (· < ·)
  /-- The list holds just the skills that are found under their ids. -/
  listed : ∀ skill,
    skill ∈ registry.list ↔ registry.skills.find? skill.id = some skill
  /-- An operation changes no other entry than the one that it names. -/
  framed : ∀ files operation id,
    operation ≠ .registerLibrary → operation.target? ≠ some id →
      (registry.perform files operation).registry.skills.find? id =
        registry.skills.find? id
  /-- A skill that is enabled is still there after any one operation. -/
  kept : ∀ files operation id skill,
    registry.skills.find? id = some skill → skill.enabled = true →
      (registry.perform files operation).registry.skills.has id = true
  /-- A skill whose id is taken is refused, and nothing changes. -/
  unreplaced : ∀ files operation skill,
    operation.Brings skill → registry.skills.has skill.id = true →
      ∃ failure, registry.perform files operation =
        registry.refuse files failure
  /-- Switching a skill changes its flag and nothing else. -/
  switched : ∀ files id enabled other,
    (registry.perform files (.setEnabled id enabled)).registry.skills.find?
        other =
      if other = id then
        (registry.skills.find? id).map fun skill =>
          { skill with enabled := enabled }
      else registry.skills.find? other
  /-- The library changes no skill that is there, and adds all of its own that
  are not. -/
  completed : ∀ files id,
    (registry.registerLibrary files).registry.skills.find? id =
      (registry.skills.find? id).or
        (SkillLibrary.skills.find? (·.id == id))
  /-- The ids that were added are reported in the order of the library, unless
  the save fails. -/
  reported : ∀ files,
    (registry.registerLibrary files).outcome = .ok registry.absentIds ∨
      ∃ store failure, registry.store = some store ∧
        (store.save (registry.registerLibrary files).registry.list files).1 =
          .error failure ∧
        (registry.registerLibrary files).outcome = .error failure
  /-- A second time nothing is added and nothing is written. -/
  repeated : ∀ files later,
    let after := (registry.registerLibrary files).registry
    after.registerLibrary later = ⟨.ok [], after, later⟩

theorem Indexed.governed {registry : Registry}
    (h : Indexed registry.skills) : Governed registry where
  keyed := by
    intro id skill hfound
    exact h.keyed _ (Dict.mem_of_find? hfound)
  increasing := by
    rw [h.ids_list]
    exact h.sorted
  listed := fun _ => h.mem_list_iff
  framed := by
    intro files operation id hlibrary htarget
    rcases registry.perform_change files operation with
      hsame | ⟨changed, hchange, hregistry⟩
    · rw [hsame]
    · rw [hregistry]
      exact hchange.find?_of_ne hlibrary htarget
  kept := by
    intro files operation id skill hfound henabled
    rcases registry.perform_change files operation with
      hsame | ⟨changed, hchange, hregistry⟩
    · rw [hsame]
      exact Dict.has_iff_exists.mpr ⟨skill, hfound⟩
    · rw [hregistry]
      exact hchange.has_of_enabled hfound henabled
  unreplaced := by
    intro files operation skill hbrings hhas
    exact perform_of_has hbrings hhas files
  switched := registry.registry_setEnabled
  completed := by
    intro files id
    rw [registry_registerLibrary, find?_addMissing_eq]
  reported := by
    intro files
    by_cases habsent : registry.absentIds = []
    · left
      rw [(registerLibrary_of_present habsent files).2, habsent]
    · rw [registerLibrary_of_absent habsent, registry_persist]
      exact outcome_persist _ files registry.absentIds
  repeated := by
    intro files later after
    have hafter : after = { registry with
        skills := (addMissing SkillLibrary.skills registry.skills).2 } :=
      registry.registry_registerLibrary files
    rw [hafter, registerLibrary_eq, addMissing_addMissing]
    rfl

/-- At every moment of a manager, however it was opened and whatever was asked
of it, its registry is governed; and when it began without a store and without
skills, all of its skills are valid. -/
theorem evolves_governed {first registry : Registry} (hopened : Opened first)
    (h : Evolves first registry) :
    Governed registry ∧
      (first = .empty → ∀ skill ∈ registry.list, skill.validate = []) := by
  constructor
  · exact (h.indexed hopened).governed
  · rintro rfl skill hskill
    obtain ⟨entry, hentry, rfl⟩ := List.mem_map.mp hskill
    rw [Skill.validate_eq_nil]
    exact h.valid entry hentry

/-- A store with one skill to which another is added, which is then disabled;
and the same registration without a store. -/
theorem listing_governed :
    let stored : Registry := ⟨byId [counting], some ⟨"skills.json"⟩⟩
    let added := stored.perform (filesOf [counting]) (.register listing)
    let disabled :=
      added.registry.perform added.files (.setEnabled "list" false)
    let unstored := Registry.empty.perform .empty (.register listing)
    openStore ⟨"skills.json"⟩ (filesOf [counting]) = .ok stored ∧
      added.outcome = .ok () ∧ disabled.outcome = .ok () ∧
      disabled.registry.list.map (·.id) = ["count", "list"] ∧
      Governed disabled.registry ∧
      (disabled.registry.perform disabled.files
        (.unregister "count")).registry.skills.has "count" = true ∧
      unstored.registry.list.map (·.id) = ["list"] ∧
      ∀ skill ∈ unstored.registry.list, skill.validate = [] := by
  intro stored added disabled unstored
  have hsaved : Store.save ⟨"skills.json"⟩ [counting] .empty =
      (.ok (), filesOf [counting]) := rfl
  have hload : Store.load ⟨"skills.json"⟩ (filesOf [counting]) =
      .ok [counting] :=
    load_saved hsaved (by simpa using counting_canonical) rfl (by decide) rfl
  have hopen : openStore ⟨"skills.json"⟩ (filesOf [counting]) = .ok stored := by
    rw [openStore, hload]
    rfl
  have hgoverned : Governed disabled.registry :=
    (evolves_governed (.stored hopen)
      (.after (.after .start (.register listing) (filesOf [counting]))
        (.setEnabled "list" false) added.files)).1
  have hvalid : ∀ skill ∈ unstored.registry.list, skill.validate = [] :=
    (evolves_governed .empty
      (.after .start (.register listing) .empty)).2 rfl
  have hcounting : disabled.registry.skills.find? "count" = some counting := rfl
  exact ⟨hopen, rfl, rfl, rfl, hgoverned,
    hgoverned.kept disabled.files _ _ _ hcounting rfl, rfl, hvalid⟩

end Registry

end SkillEngine
