import SkillEngine.Proofs.Registry.Refusal
import SkillEngine.Proofs.Registry.Reopening

/-!
# What becomes of stored skills

The records of a store are a list, and a registry holds one skill for each id:
the last record with this id.  An operation leaves every skill alone whose id
is not its target, so through all later saves the store keeps that record and
loses the ones before it.
-/

namespace SkillEngine

/-! ## The last record of an id -/

namespace Dict

variable {α : Type}

theorem find?_insertAll_eq (dict : Dict α) (entries : List (String × α))
    (name : String) :
    (dict.insertAll entries).find? name =
      ((entries.filter (·.1 == name)).getLast?.map (·.2)).or
        (dict.find? name) := by
  induction entries generalizing dict with
  | nil => simp [insertAll]
  | cons entry entries ih =>
      have hstep : insertAll dict (entry :: entries) =
          insertAll (dict.insert entry.1 entry.2) entries := rfl
      rw [hstep, ih, find?_insert]
      by_cases hname : entry.1 = name
      · rw [if_pos hname.symm, List.filter_cons_of_pos (by simpa using hname),
          List.getLast?_cons]
        cases (entries.filter (·.1 == name)).getLast? <;> simp
      · rw [if_neg (Ne.symm hname), List.filter_cons_of_neg (by simpa using hname)]

end Dict

namespace Registry

/-- Under an id stands the last of the skills with this id. -/
theorem find?_byId (skills : List Skill) (id : String) :
    (byId skills).find? id = (skills.filter (·.id == id)).getLast? := by
  rw [byId, Dict.ofList, Dict.find?_insertAll_eq, Dict.find?_nil,
    Option.or_none, List.filter_map, List.getLast?_map, Option.map_map]
  exact Option.map_id_apply

theorem filter_values {skills : Dict Skill} (hnodup : skills.names.Nodup)
    (hkeyed : ∀ entry ∈ skills, entry.2.id = entry.1) (id : String) :
    skills.values.filter (·.id == id) = (skills.find? id).toList := by
  induction skills with
  | nil => rfl
  | cons entry skills ih =>
      obtain ⟨hnew, hrest⟩ := List.nodup_cons.mp hnodup
      rw [List.forall_mem_cons] at hkeyed
      have hmore := ih hrest hkeyed.2
      rw [Dict.values, List.map_cons, ← Dict.values, Dict.find?_cons]
      by_cases hid : entry.1 = id
      · rw [Dict.find?_eq_none (hid ▸ hnew)] at hmore
        rw [List.filter_cons_of_pos (by simp [hkeyed.1, hid]), hmore,
          if_pos hid.symm]
        rfl
      · rw [List.filter_cons_of_neg (by simp [hkeyed.1, hid]), hmore,
          if_neg (Ne.symm hid)]

/-! ## What an operation leaves alone -/

/-- The id of the skill that an operation is about.  The library is registered
without regard to any skill that is there. -/
def Operation.target? : Operation → Option String
  | .register skill => some skill.id
  | .importDocument document =>
    (Skill.codec.read document).toOption.map (·.id)
  | .unregister id => some id
  | .setEnabled id _ => some id
  | .registerLibrary => none

theorem find?_planRegister {skills changed : Dict Skill} {skill : Skill}
    {id : String} (hid : some skill.id ≠ some id)
    (hplan : planRegister skills skill = .ok (some changed)) :
    changed.find? id = skills.find? id := by
  rw [planRegister] at hplan
  split at hplan
  · simp at hplan
  · obtain rfl : skills.insert skill.id skill = changed := by
      simpa using hplan
    exact Dict.find?_insert_of_ne (fun heq => hid (congrArg some heq.symm)) _ _

/-- A skill that is not the target of an operation is the same in the skills
that the operation asks for. -/
theorem find?_plan {skills changed : Dict Skill} {operation : Operation}
    {id : String} {skill : Skill} (hfound : skills.find? id = some skill)
    (htarget : operation.target? ≠ some id)
    (hplan : plan skills operation = .ok (some changed)) :
    changed.find? id = some skill := by
  cases operation with
  | register added => rw [find?_planRegister htarget hplan, hfound]
  | importDocument document =>
      rw [plan] at hplan
      split at hplan
      · simp at hplan
      · split at hplan
        · simp at hplan
        next added hread =>
          rw [Operation.target?, hread] at htarget
          rw [find?_planRegister htarget hplan, hfound]
  | unregister other =>
      rw [plan] at hplan
      split at hplan
      · simp at hplan
      · split at hplan
        · simp at hplan
        · obtain rfl : skills.erase other = changed := by simpa using hplan
          have hne : id ≠ other := fun heq => htarget (congrArg some heq.symm)
          rw [Dict.find?_erase, if_neg hne, hfound]
  | setEnabled other enabled =>
      rw [plan] at hplan
      split at hplan
      · simp at hplan
      next held _ =>
        obtain rfl : skills.insert other { held with enabled := enabled } =
            changed := by simpa using hplan
        have hne : id ≠ other := fun heq => htarget (congrArg some heq.symm)
        rw [Dict.find?_insert_of_ne hne, hfound]
  | registerLibrary =>
      rw [plan] at hplan
      split at hplan
      · simp at hplan
      · obtain rfl : (addMissing SkillLibrary.skills skills).2 = changed := by
          simpa using hplan
        rw [find?_addMissing_eq, hfound, Option.some_or]

/-! ## Operations one after another -/

/-- Operations that are carried out one after another and all succeed. -/
inductive Performed (registry : Registry) (files : FileSystem) :
    List Operation → Registry → FileSystem → Prop
  | start : Performed registry files [] registry files
  | done {operations : List Operation} {last : Registry}
      {lastFiles : FileSystem} (operation : Operation)
      (h : Performed registry files operations last lastFiles)
      (hcanonical : operation.Canonical)
      (hdone : (last.perform lastFiles operation).outcome = .ok ()) :
      Performed registry files (operations ++ [operation])
        (last.perform lastFiles operation).registry
        (last.perform lastFiles operation).files

variable {store : Store} {registry last : Registry}
  {files lastFiles : FileSystem} {operations : List Operation}

theorem Performed.reached (hopen : openStore store files = .ok registry)
    (h : Performed registry files operations last lastFiles) :
    Reached store last lastFiles := by
  induction h with
  | start => exact .opened hopen
  | done operation _ hcanonical hdone ih => exact ih.done operation hcanonical hdone

/-- Nothing was written, or the file holds the text of the skills. -/
theorem Performed.written (hopen : openStore store files = .ok registry)
    (h : Performed registry files operations last lastFiles) :
    lastFiles = files ∨
      lastFiles.exists? store.path = true ∧
        lastFiles.readText store.path =
          .ok (StoreDocument.ofSkills last.list).text := by
  induction h with
  | start => exact .inl rfl
  | done operation hbefore _ hdone ih =>
      rcases perform_ok (hbefore.reached hopen).persisted.stored hdone with
        ⟨hregistry, hfiles⟩ | ⟨changed, -, hregistry, hsave⟩
      · rwa [hregistry, hfiles]
      · rw [hregistry]
        exact .inr (Store.text_of_save hsave)

/-- A skill stays as it is while no operation has its id for a target. -/
theorem Performed.find? (hopen : openStore store files = .ok registry)
    (h : Performed registry files operations last lastFiles) {id : String}
    {skill : Skill} (hfound : registry.skills.find? id = some skill)
    (htarget : ∀ operation ∈ operations, operation.target? ≠ some id) :
    last.skills.find? id = some skill := by
  induction h with
  | start => exact hfound
  | done operation hbefore _ hdone ih =>
      rw [List.forall_mem_append, List.forall_mem_singleton] at htarget
      have hheld := ih htarget.1
      rcases perform_ok (hbefore.reached hopen).persisted.stored hdone with
        ⟨hregistry, -⟩ | ⟨changed, hplan, hregistry, -⟩
      · rwa [hregistry]
      · rw [hregistry]
        exact find?_plan hheld htarget.2 hplan

/-! ## What the store holds then -/

/-- Through operations that succeed a store that is written keeps, of the
records with an id that none of them has for a target, the last one, without
the numbers and defaults that are lost in writing.  So a record is kept as it
was exactly when this is what the last record of its id leaves. -/
theorem load_of_performed {records : List Skill}
    (hload : store.load files = .ok records)
    (hperformed : Performed ⟨byId records, some store⟩ files operations last
      lastFiles)
    (hback : ∀ number ∈ (StoreDocument.ofSkills last.list).numbers,
      number.ReadsBack)
    (hroom : ∀ skill ∈ last.list, skill.depth + 2 ≤ Json.nestingLimit) :
    lastFiles = files ∨
      ∃ held, store.load lastFiles = .ok held ∧
        ∀ record ∈ records,
          (∀ operation ∈ operations, operation.target? ≠ some record.id) →
          held.filter (·.id == record.id) =
              ((records.filter (·.id == record.id)).getLast?.map
                Skill.recovered).toList ∧
            (record ∈ held ↔
              (records.filter (·.id == record.id)).getLast?.map
                Skill.recovered = some record) := by
  have hopen : openStore store files = .ok ⟨byId records, some store⟩ := by
    rw [openStore, hload]
    rfl
  have hregular := (hperformed.reached hopen).persisted.regular
  rcases hperformed.written hopen with hfiles | ⟨hexists, htext⟩
  · exact .inl hfiles
  right
  have hheld := Store.load_eq_of_text hexists htext hregular.canonical_values
    hback
  rw [if_pos ((StoreDocument.depth_le_nestingLimit_iff _).mpr hroom)] at hheld
  refine ⟨_, hheld, fun record hrecord htarget => ?_⟩
  obtain ⟨kept, hkept⟩ : ∃ kept,
      (records.filter (·.id == record.id)).getLast? = some kept := by
    rw [← Option.ne_none_iff_exists', Ne, List.getLast?_eq_none_iff,
      List.filter_eq_nil_iff]
    exact fun hnone => hnone record hrecord (beq_self_eq_true record.id)
  have hfound : last.skills.find? record.id = some kept :=
    hperformed.find? hopen ((find?_byId records record.id).trans hkept) htarget
  have hfilter : (last.list.map Skill.recovered).filter (·.id == record.id) =
      [kept.recovered] := by
    have hlist : last.list.filter (·.id == record.id) = [kept] := by
      rw [list, filter_values hregular.sorted.nodup hregular.keyed, hfound]
      rfl
    rw [List.filter_map]
    exact congrArg (List.map Skill.recovered) hlist
  have hmem : record ∈ last.list.map Skill.recovered ↔
      record ∈ (last.list.map Skill.recovered).filter (·.id == record.id) := by
    rw [List.mem_filter, and_iff_left (beq_self_eq_true record.id)]
  rw [hmem, hfilter, hkept]
  simp [eq_comm]

/-! ## A record that stays and one that is lost -/

theorem counting_canonical : counting.Canonical := by
  intro document hdocument
  obtain rfl := List.mem_singleton.mp hdocument
  rfl

/-- The same under another name. -/
def recounting : Skill := { counting with name := "Recount" }

/-- The same under another id. -/
def listing : Skill := { counting with id := "list" }

/-- The files after skills were saved where nothing was. -/
def filesOf (skills : List Skill) : FileSystem :=
  (Store.save ⟨"skills.json"⟩ skills .empty).2

/-- A store that was saved with skills without numbers holds these skills. -/
theorem load_saved {files saved : FileSystem} {skills : List Skill}
    (hsave : store.save skills files = (.ok (), saved))
    (hcanonical : ∀ skill ∈ skills, skill.Canonical)
    (hnumbers : (StoreDocument.ofSkills skills).numbers = [.integer 1])
    (hroom : ∀ skill ∈ skills, skill.depth + 2 ≤ Json.nestingLimit)
    (hkept : skills.map Skill.recovered = skills) :
    store.load saved = .ok skills := by
  obtain ⟨hexists, htext⟩ := Store.text_of_save hsave
  have hback := StoreDocument.readsBack_of_numbers hnumbers
  rw [Store.load_eq_of_text hexists htext hcanonical hback,
    if_pos ((StoreDocument.depth_le_nestingLimit_iff _).mpr hroom), hkept]

/-- A registration beside a stored skill leaves it in the store. -/
theorem counting_kept :
    let done := Registry.perform ⟨byId [counting], some ⟨"skills.json"⟩⟩
      (filesOf [counting]) (.register listing)
    Store.load ⟨"skills.json"⟩ (filesOf [counting]) = .ok [counting] ∧
      done.outcome = .ok () ∧
      ∃ held, Store.load ⟨"skills.json"⟩ done.files = .ok held ∧
        counting ∈ held := by
  intro done
  have hsaved : Store.save ⟨"skills.json"⟩ [counting] .empty =
      (.ok (), filesOf [counting]) := rfl
  have hload : Store.load ⟨"skills.json"⟩ (filesOf [counting]) =
      .ok [counting] :=
    load_saved hsaved (by simpa using counting_canonical) rfl (by decide) rfl
  have hdone : done.outcome = .ok () := rfl
  have hlist : done.registry.list = [counting, listing] := rfl
  have hback : ∀ number ∈ (StoreDocument.ofSkills done.registry.list).numbers,
      number.ReadsBack := StoreDocument.readsBack_of_numbers rfl
  have hperformed : Performed ⟨byId [counting], some ⟨"skills.json"⟩⟩
      (filesOf [counting]) [.register listing] done.registry done.files :=
    .done (.register listing) .start counting_canonical hdone
  refine ⟨hload, hdone, ?_⟩
  rcases load_of_performed hload hperformed hback (by rw [hlist]; decide) with
    hfiles | ⟨held, hheld, hrecords⟩
  · exact ⟨[counting], by rw [hfiles, hload], List.mem_singleton_self _⟩
  · obtain ⟨-, hkept⟩ := hrecords counting (List.mem_singleton_self _) (by
      rw [List.forall_mem_singleton]
      decide)
    exact ⟨held, hheld, hkept.mpr rfl⟩

/-- Of two records with one id a registration beside them leaves only the last
in the store. -/
theorem counting_dropped :
    let registry : Registry :=
      ⟨byId [counting, recounting], some ⟨"skills.json"⟩⟩
    let files := filesOf [counting, recounting]
    let done := registry.perform files (.register listing)
    Store.load ⟨"skills.json"⟩ files = .ok [counting, recounting] ∧
      openStore ⟨"skills.json"⟩ files = .ok registry ∧
      Operation.target? (.register listing) ≠ some counting.id ∧
      done.outcome = .ok () ∧
      ∃ held, Store.load ⟨"skills.json"⟩ done.files = .ok held ∧
        counting ∉ held := by
  intro registry files done
  have hsaved : Store.save ⟨"skills.json"⟩ [counting, recounting] .empty =
      (.ok (), files) := rfl
  have hload : Store.load ⟨"skills.json"⟩ files = .ok [counting, recounting] :=
    load_saved hsaved
      (by simpa using ⟨counting_canonical, counting_canonical⟩) rfl (by decide)
      rfl
  have hopen : openStore ⟨"skills.json"⟩ files = .ok registry := by
    rw [openStore, hload]
    rfl
  have hrewritten : Store.save ⟨"skills.json"⟩ [recounting, listing] files =
      (.ok (), done.files) := rfl
  have hleft : Store.load ⟨"skills.json"⟩ done.files =
      .ok [recounting, listing] :=
    load_saved hrewritten
      (by simpa using ⟨counting_canonical, counting_canonical⟩) rfl (by decide)
      rfl
  refine ⟨hload, hopen, by decide, rfl, [recounting, listing], hleft, ?_⟩
  have hrecounting : counting ≠ recounting := fun heq =>
    absurd (congrArg Skill.name heq) (by decide)
  have hlisting : counting ≠ listing := fun heq =>
    absurd (congrArg Skill.id heq) (by decide)
  simp [hrecounting, hlisting]

end Registry

end SkillEngine
