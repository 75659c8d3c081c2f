import SkillEngine.Proofs.Json.Nesting
import SkillEngine.Proofs.Registry.Reopening
import SkillEngine.Proofs.Skill.Finite

/-!
# Imported skills in an opened store

An import that succeeds has written the store.  Whether the store can be opened
after it depends on the nesting of its text, in which the skill stands two
levels deeper than in the document that was imported; and what is opened is the
skill without the temperatures that single precision cannot hold.  So a text
can be accepted that makes the store unreadable, and a temperature can be
accepted that is gone the next time.
-/

namespace SkillEngine.Registry

/-- An import that succeeds has read its skill, added it, and saved all. -/
theorem importDocument_ok {store : Store} {registry : Registry}
    {files : FileSystem} {document : Json} {skill : Skill}
    (hstored : registry.store = some store)
    (himport : (registry.importDocument files document).outcome = .ok skill) :
    Skill.codec.read document = .ok skill ∧
      (registry.importDocument files document).registry =
        { registry with skills := registry.skills.insert skill.id skill } ∧
      store.save (registry.skills.insert skill.id skill).values files =
        (.ok (), (registry.importDocument files document).files) := by
  rw [importDocument] at himport ⊢
  split at himport
  · simp [refuse] at himport
  next hnamed =>
    rw [if_neg hnamed]
    cases hread : Skill.codec.read document with
    | error fault => simp [hread, refuse] at himport
    | ok found =>
        simp only [hread] at himport ⊢
        obtain ⟨done, hregistered, rfl⟩ := exceptMap_eq_ok_iff.mp himport
        rw [register] at hregistered ⊢
        cases hrefusal : registry.refusal? found with
        | some failure => simp [hrefusal, refuse] at hregistered
        | none =>
            simp only [hrefusal, persist, hstored] at hregistered ⊢
            obtain ⟨done, hsaved, -⟩ := exceptMap_eq_ok_iff.mp hregistered
            exact ⟨trivial, trivial, Prod.ext hsaved rfl⟩

theorem Reached.importDocument {store : Store} {registry : Registry}
    {files : FileSystem} {document : Json} {skill : Skill}
    (hreached : Reached store registry files)
    (himport : (registry.importDocument files document).outcome = .ok skill) :
    Reached store (registry.importDocument files document).registry
      (registry.importDocument files document).files := by
  refine hreached.done (.importDocument document) trivial ?_
  simp only [perform, Managed.silent, himport]
  rfl

/-- What is opened after an import that succeeds: what is recovered of the
skills, or nothing when one of them leaves no room for two more levels. -/
theorem Reached.openStore_imported {store : Store} {registry : Registry}
    {files : FileSystem} {document : Json} {skill : Skill}
    (hreached : Reached store registry files)
    (himport : (registry.importDocument files document).outcome = .ok skill)
    (hback : ∀ number ∈ (StoreDocument.ofSkills
      (registry.importDocument files document).registry.list).numbers,
      number.ReadsBack) :
    openStore store (registry.importDocument files document).files =
      if ∀ other ∈ (registry.importDocument files document).registry.list,
          other.depth + 2 ≤ Json.nestingLimit then
        .ok ⟨(registry.importDocument files document).registry.skills.mapValues
          Skill.recovered, some store⟩
      else .error (store.unreadable .malformed) := by
  have hregular := (hreached.importDocument himport).persisted.regular
  obtain ⟨-, hregistry, hsave⟩ :=
    importDocument_ok hreached.persisted.stored himport
  have hlist : (registry.importDocument files document).registry.list =
      (registry.skills.insert skill.id skill).values := by
    rw [hregistry]
    rfl
  rw [← hlist] at hsave
  obtain ⟨hexists, htext⟩ := Store.text_of_save hsave
  rw [openStore_of_text hregular hexists htext hback]
  simp only [StoreDocument.depth_le_nestingLimit_iff]

/-- A text that is imported was nested within the limit of the reader.  The
store that is written then is opened exactly when every skill in it leaves room
for two more levels. -/
theorem opens_after_import_iff {store : Store} {registry : Registry}
    {files : FileSystem} {text : String} {document : Json} {skill : Skill}
    (hreached : Reached store registry files)
    (htext : Json.read? text = some document)
    (himport : (registry.importDocument files document).outcome = .ok skill)
    (hback : ∀ number ∈ (StoreDocument.ofSkills
      (registry.importDocument files document).registry.list).numbers,
      number.ReadsBack) :
    let done := registry.importDocument files document
    document.depth ≤ Json.nestingLimit ∧
      done.registry.skills = registry.skills.insert skill.id skill ∧
      openStore store done.files =
        if ∀ other ∈ done.registry.list,
            other.depth + 2 ≤ Json.nestingLimit then
          .ok ⟨done.registry.skills.mapValues Skill.recovered, some store⟩
        else .error (store.unreadable .malformed) := by
  intro done
  obtain ⟨-, hregistry, -⟩ :=
    importDocument_ok hreached.persisted.stored himport
  refine ⟨Json.depth_le_of_read? htext, ?_,
    hreached.openStore_imported himport hback⟩
  simp only [done, hregistry]

/-! ## Documents of skills are imported -/

theorem isNull_field_canonical {fields : List (String × Json)}
    (hnodup : (Dict.names fields).Nodup) {name : String} {value : Json}
    (hfound : Dict.find? fields name = some value)
    (hpresent : value.canonical.isNull = false) :
    ((Json.object fields).canonical.field name).isNull = false := by
  have hvalues : ((Dict.mapValues Json.canonical fields).map (·.1)).Nodup := by
    rw [← Dict.names, Dict.names_mapValues]
    exact hnodup
  simp only [Json.canonical_object, Json.field, Json.field?, Json.object?,
    Option.bind_some]
  rw [Dict.find?_ofList hvalues, Dict.find?_mapValues, hfound]
  exact hpresent

/-- The document of a skill has all fields without which it is not imported. -/
theorem missingFields_document (skill : Skill) :
    missingFields (Skill.codec.document skill) = [] := by
  have hnodup : (Dict.names (Skill.record.write skill)).Nodup :=
    Record.nodup_written (by decide) skill
  have hid : Dict.find? (Skill.record.write skill) "id" =
      some (.string skill.id) := rfl
  have hname : Dict.find? (Skill.record.write skill) "name" =
      some (.string skill.name) := rfl
  have hdefinition : Dict.find? (Skill.record.write skill) "definition" =
      some (Definition.codec.encode skill.definition) := by
    obtain ⟨id, name, description, category, version, author, enabled,
      definition, settings, permissions, tags, icon, shortcut⟩ := skill
    cases author <;> rfl
  have hdocument : Skill.codec.document skill =
      (Json.object (Skill.record.write skill)).canonical := rfl
  rw [missingFields, hdocument]
  simp [importedFields, isNull_field_canonical hnodup hid rfl,
    isNull_field_canonical hnodup hname rfl,
    isNull_field_canonical hnodup hdefinition rfl]

/-- The document of a skill that can be stored is imported as this skill, which
is then registered. -/
theorem importDocument_document (registry : Registry) (files : FileSystem)
    {skill : Skill} (hcanonical : skill.Canonical) (hstorable : skill.Storable) :
    registry.importDocument files (Skill.codec.document skill) =
      { registry.register files skill with
        outcome := (registry.register files skill).outcome.map fun _ => skill } := by
  have hkeeps : Skill.codec.Keeps Json.canonicalConveyance .direct skill :=
    (Skill.keeps_iff hcanonical).mpr hstorable
  have hread : Skill.codec.read (Skill.codec.document skill) = .ok skill := hkeeps
  simp [importDocument, missingFields_document, hread]

/-- The text of a document in canonical form is read as this document, when the
reader allows its nesting. -/
theorem read?_pretty {document : Json} (hcanonical : document.canonical = document)
    (hback : ∀ number ∈ document.numbers, number.ReadsBack)
    (hdepth : document.depth ≤ Json.nestingLimit) :
    Json.read? document.pretty = some document := by
  rw [Json.read?, Json.parse?_pretty hback (Json.Shape.whole_covers document),
    if_pos hdepth, Json.reread_of_canonical hcanonical, Option.map_some, hcanonical]

/-- A valid skill is imported into an empty store. -/
theorem importDocument_empty {skill : Skill} (hcanonical : skill.Canonical)
    (hstorable : skill.Storable) (hvalid : skill.violations = []) :
    let registry : Registry := ⟨[], some ⟨"skills.json"⟩⟩
    let done := registry.importDocument .empty (Skill.codec.document skill)
    done.outcome = .ok skill ∧ done.registry = ⟨[(skill.id, skill)], registry.store⟩ := by
  intro registry done
  have hrefusal : registry.refusal? skill = none := by
    simp [refusal?, hvalid, registry, Dict.has]
  have hregistered : registry.register .empty skill =
      persist ⟨[(skill.id, skill)], registry.store⟩ .empty () := by
    rw [register, hrefusal]
    rfl
  have hdone : done = _ :=
    importDocument_document registry .empty hcanonical hstorable
  rw [hdone, hregistered]
  exact ⟨rfl, rfl⟩

/-- The import of a prompt with nested lists into an empty store. -/
theorem importDocument_nestedDefault (more : Nat)
    (hdocument : (Skill.codec.document (nestedDefault more)).numbers = [])
    (hshallow : (Skill.codec.document (nestedDefault more)).depth ≤
      Json.nestingLimit)
    (hstored : (StoreDocument.ofSkills [nestedDefault more]).numbers =
      [.integer 1])
    (hvalid : (nestedDefault more).violations = []) :
    let registry : Registry := ⟨[], some ⟨"skills.json"⟩⟩
    let document := Skill.codec.document (nestedDefault more)
    let done := registry.importDocument .empty document
    openStore ⟨"skills.json"⟩ .empty = .ok registry ∧
      Json.read? document.pretty = some document ∧
      done.outcome = .ok (nestedDefault more) ∧
      done.registry = ⟨[("deep", nestedDefault more)], registry.store⟩ ∧
      ∀ number ∈ (StoreDocument.ofSkills done.registry.list).numbers,
        number.ReadsBack := by
  intro registry document done
  have htext : Json.read? document.pretty = some document :=
    read?_pretty (Json.canonical_canonical _) (by simp [document, hdocument])
      hshallow
  obtain ⟨himport, hregistry⟩ : done.outcome = .ok (nestedDefault more) ∧
      done.registry = ⟨[("deep", nestedDefault more)], registry.store⟩ :=
    importDocument_empty (nestedDefault_canonical more)
      (nestedDefault_storable more) hvalid
  refine ⟨rfl, htext, himport, hregistry, ?_⟩
  rw [hregistry]
  exact StoreDocument.readsBack_of_numbers hstored

/-- After a prompt with a list as its default was imported, the store is opened
with this prompt. -/
theorem nestedDefault_opens_after_import :
    let registry : Registry := ⟨[], some ⟨"skills.json"⟩⟩
    let document := Skill.codec.document (nestedDefault 0)
    let done := registry.importDocument .empty document
    openStore ⟨"skills.json"⟩ .empty = .ok registry ∧
      Json.read? document.pretty = some document ∧
      done.outcome = .ok (nestedDefault 0) ∧
      openStore ⟨"skills.json"⟩ done.files = .ok done.registry := by
  intro registry document done
  obtain ⟨hopen, htext, himport, hregistry, hback⟩ :=
    importDocument_nestedDefault 0 (by decide +kernel) (by decide +kernel)
      (by decide +kernel) rfl
  obtain ⟨-, -, hopened⟩ :=
    opens_after_import_iff (.opened hopen) htext himport hback
  have hroom : (nestedDefault 0).depth + 2 ≤ Json.nestingLimit := by
    decide +kernel
  refine ⟨hopen, htext, himport, hopened.trans ((if_pos ?_).trans ?_)⟩
  · rw [hregistry]
    simpa [list, Dict.values] using hroom
  · rw [hregistry]
    rfl

/-- A text that is nested within the limit is imported, and then the store
cannot be opened. -/
theorem nestedDefault_closes_store :
    let registry : Registry := ⟨[], some ⟨"skills.json"⟩⟩
    let document := Skill.codec.document (nestedDefault 121)
    let done := registry.importDocument .empty document
    openStore ⟨"skills.json"⟩ .empty = .ok registry ∧
      Json.read? document.pretty = some document ∧
      done.outcome = .ok (nestedDefault 121) ∧
      openStore ⟨"skills.json"⟩ done.files =
        .error (Store.unreadable ⟨"skills.json"⟩ .malformed) := by
  intro registry document done
  obtain ⟨hopen, htext, himport, hregistry, hback⟩ :=
    importDocument_nestedDefault 121 (by decide +kernel) (by decide +kernel)
      (by decide +kernel) rfl
  have hdeep : ¬ (nestedDefault 121).depth + 2 ≤ Json.nestingLimit := by
    decide +kernel
  refine ⟨hopen, htext, himport,
    ((Reached.opened hopen).openStore_imported himport hback).trans (if_neg ?_)⟩
  rw [hregistry]
  simpa [list, Dict.values] using hdeep

/-! ## What is read of an imported skill again -/

/-- A skill that was read from a document with finite numbers is read again
without the temperatures that are not finite, from its own document and, after
it was imported, from the store.  So it comes back exactly when all of its
temperatures are finite. -/
theorem reread_of_read {document : Json} {skill : Skill}
    (hfinite : document.AllFinite)
    (hread : Skill.codec.read document = .ok skill) :
    Skill.codec.read (Skill.codec.document skill) = .ok skill.recovered ∧
    (skill.recovered = skill ↔
      ∀ temperature ∈ skill.temperatures, temperature.isFinite = true) ∧
    ∀ {store : Store} {registry : Registry} {files : FileSystem},
      let done := registry.importDocument files document
      Reached store registry files →
      done.outcome = .ok skill →
      (∀ number ∈ (StoreDocument.ofSkills done.registry.list).numbers,
        number.ReadsBack) →
      (∀ other ∈ done.registry.list, other.depth + 2 ≤ Json.nestingLimit) →
      ∃ reopened, openStore store done.files = .ok reopened ∧
        reopened.skills.find? skill.id = some skill.recovered := by
  have hcanonical : skill.Canonical :=
    Skill.codec_yields .direct document skill trivial hread
  have hagain : Skill.codec.restore Json.canonicalConveyance .direct skill =
      .ok skill.recovered := Skill.restore_eq hcanonical
  refine ⟨hagain, Skill.recovered_eq_self_iff_of_read hfinite hread, ?_⟩
  intro store registry files done hreached himport hback hroom
  have hopened := hreached.openStore_imported himport hback
  rw [if_pos hroom] at hopened
  refine ⟨_, hopened, ?_⟩
  obtain ⟨-, hregistry, -⟩ :=
    importDocument_ok hreached.persisted.stored himport
  rw [Dict.find?_mapValues, hregistry, Dict.find?_insert_self]
  rfl

/-- A prompt with a list as its default is read again from its document and
from a store. -/
theorem nestedDefault_reread :
    let registry : Registry := ⟨[], some ⟨"skills.json"⟩⟩
    let document := Skill.codec.document (nestedDefault 0)
    let done := registry.importDocument .empty document
    document.AllFinite ∧
      Skill.codec.read document = .ok (nestedDefault 0) ∧
      ∃ reopened, openStore ⟨"skills.json"⟩ done.files = .ok reopened ∧
        reopened.skills.find? "deep" = some (nestedDefault 0) := by
  intro registry document done
  have hfinite : document.AllFinite :=
    Json.allFinite_of_canonical (Json.canonical_canonical _)
  obtain ⟨hopen, -, himport, hregistry, hback⟩ :=
    importDocument_nestedDefault 0 (by decide +kernel) (by decide +kernel)
      (by decide +kernel) rfl
  obtain ⟨hread, -, -⟩ := importDocument_ok rfl himport
  obtain ⟨-, -, hstore⟩ := reread_of_read hfinite hread
  have hroom : (nestedDefault 0).depth + 2 ≤ Json.nestingLimit := by
    decide +kernel
  refine ⟨hfinite, hread, hstore (.opened hopen) himport hback ?_⟩
  rw [hregistry]
  simpa [list, Dict.values] using hroom

/-- A prompt whose temperature is too great for single precision. -/
def hotDocument : Json :=
  .object
    [("definition", .object
      [("model", .object
          [("temperature", .number (.double (.ofDecimal false 1 39)))]),
        ("template", .string "Hot"), ("type", .string "prompt")]),
      ("id", .string "hot"), ("name", .string "Hot")]

/-- The prompt that is read from the document. -/
def hot : Skill :=
  { (Definition.prompt
      { template := "Hot"
        parameters := []
        systemPrompt := none
        model := some
          { provider := none
            model := none
            temperature := some (Floating.ofDecimal false 1 39 : Double).convert
            maxTokens := none } }).skill "hot" "Hot" "" .custom [] with
    version := "1.0.0" }

/-- A document with finite numbers is read as a prompt, and another prompt is
read from the document of this one. -/
theorem hotDocument_not_reread :
    hotDocument.AllFinite ∧ Skill.codec.read hotDocument = .ok hot ∧
      ∃ cold, Skill.codec.read (Skill.codec.document hot) = .ok cold ∧
        cold ≠ hot := by
  have hfinite : hotDocument.AllFinite := by
    have hnumbers : hotDocument.numbers = [.double (.ofDecimal false 1 39)] :=
      rfl
    rw [Json.AllFinite, hnumbers, List.forall_mem_singleton]
    show (Floating.ofDecimal false 1 39 : Double).isFinite = true
    decide +kernel
  have hread : Skill.codec.read hotDocument = .ok hot := rfl
  have hcanonical : hot.Canonical :=
    Skill.codec_yields .direct hotDocument hot trivial hread
  have hagain : Skill.codec.restore Json.canonicalConveyance .direct hot =
      .ok hot.recovered := Skill.restore_eq hcanonical
  have hhot : ∃ temperature ∈ hot.temperatures,
      temperature.isFinite = false :=
    ⟨_, List.mem_singleton_self _, by decide +kernel⟩
  refine ⟨hfinite, hread, hot.recovered, hagain, fun hsame => ?_⟩
  obtain ⟨temperature, hmem, hlost⟩ := hhot
  have hkept := (Skill.recovered_eq_self_iff_of_read hfinite hread).mp hsame
    temperature hmem
  rw [hlost] at hkept
  contradiction

end SkillEngine.Registry
