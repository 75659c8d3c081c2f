import SkillEngine.Proofs.Registry.Change
import SkillEngine.Proofs.Registry.Importing

/-!
# Skills that pass from one registry to another

A registry exports a skill as a document, and another one imports it.  The two
sides meet in `missingFields`, which looks at the document before it is read:
it must let every exported document pass, and it must name what a document
lacks.

`Takes` says what a registry without a store has after it imported the document
of a skill, and `Screens` how it answers any document at all.
-/

namespace SkillEngine

/-- The document has nothing, or null, under the name. -/
def Json.Lacks (document : Json) (name : String) : Prop :=
  document.field? name = none ∨ document.field? name = some .null

theorem Json.isNull_field_iff {document : Json} {name : String} :
    (document.field name).isNull = true ↔ document.Lacks name := by
  rw [field, Lacks]
  cases document.field? name with
  | none => simp [isNull]
  | some value => cases value <;> simp [isNull]

instance (document : Json) (name : String) : Decidable (document.Lacks name) :=
  decidable_of_iff _ Json.isNull_field_iff

theorem Json.lacks_of_no_object {document : Json}
    (h : document.object? = none) (name : String) : document.Lacks name := by
  left
  rw [field?, h]
  rfl

namespace Registry

/-- The fields that a document must have for an import and lacks, in the order
in which they are asked for. -/
def lacking (document : Json) : List String :=
  importedFields.filter (document.Lacks ·)

/-- How a lacking field is reported. -/
def lackingText (name : String) : String :=
  "skill document is missing " ++ name

theorem missingFields_eq (document : Json) :
    missingFields document = (lacking document).map lackingText := by
  have hsame : ∀ name ∈ importedFields,
      (document.field name).isNull = decide (document.Lacks name) := by
    intro name _
    rw [Bool.eq_iff_iff, decide_eq_true_iff]
    exact Json.isNull_field_iff
  rw [missingFields, lacking, List.filter_congr hsame]
  rfl

theorem lacking_of_no_object {document : Json}
    (h : document.object? = none) : lacking document = importedFields := by
  rw [lacking, List.filter_eq_self]
  intro name _
  exact decide_eq_true (Json.lacks_of_no_object h name)

/-! ## The ways of an import -/

variable {receiver : Registry} {files : FileSystem}

/-- A document is turned away for what it lacks, or because it is no skill, or
because its skill cannot be registered; or its skill is added. -/
theorem importDocument_cases (hunstored : receiver.store = none)
    (files : FileSystem) (document : Json) :
    let done := receiver.importDocument files document
    (lacking document ≠ [] ∧
      done = receiver.refuse files
        (.invalid ((lacking document).map lackingText))) ∨
    lacking document = [] ∧
      ((∃ fault, Skill.codec.read document = .error fault ∧
        done = receiver.refuse files (.ofDecodeError fault)) ∨
      ∃ skill, Skill.codec.read document = .ok skill ∧
        ((∃ failure, receiver.refusal? skill = some failure ∧
          done = receiver.refuse files failure) ∨
        receiver.refusal? skill = none ∧
          done = ⟨.ok skill, { receiver with
            skills := receiver.skills.insert skill.id skill }, files⟩)) := by
  intro done
  by_cases hlacking : lacking document = []
  · have hcomplete : missingFields document = [] := by
      rw [missingFields_eq, hlacking]
      rfl
    refine .inr ⟨hlacking, ?_⟩
    cases hread : Skill.codec.read document with
    | error fault =>
        refine .inl ⟨fault, rfl, ?_⟩
        simp [done, importDocument, hcomplete, hread]
    | ok skill =>
        refine .inr ⟨skill, rfl, ?_⟩
        cases hrefusal : receiver.refusal? skill with
        | some failure =>
            refine .inl ⟨failure, rfl, ?_⟩
            simp [done, importDocument, hcomplete, hread, register, hrefusal,
              refuse, Except.map]
        | none =>
            refine .inr ⟨rfl, ?_⟩
            simp [done, importDocument, hcomplete, hread, register, hrefusal,
              persist, hunstored, Except.map]
  · refine .inl ⟨hlacking, ?_⟩
    simp [done, importDocument, missingFields_eq, hlacking]

/-! ## Documents that are imported -/

/-- The registry has the skill that the document describes and hands out the
same document again; its other skills, and the files, are as they were. -/
structure Takes (receiver : Registry) (files : FileSystem) (id : String)
    (skill : Skill) (document : Json) : Prop where
  imported : (receiver.importDocument files document).outcome = .ok skill
  found : (receiver.importDocument files document).registry.skills.find? id =
    some skill
  exported :
    (receiver.importDocument files document).registry.exportDocument id =
      .ok document
  others : ∀ other, other ≠ id →
    (receiver.importDocument files document).registry.skills.find? other =
      receiver.skills.find? other
  unstored : (receiver.importDocument files document).registry.store = none
  files : (receiver.importDocument files document).files = files

theorem takes_document {skill : Skill} (hunstored : receiver.store = none)
    (hcanonical : skill.Canonical) (hstorable : skill.Storable)
    (hvalid : skill.validate = [])
    (hnew : receiver.skills.find? skill.id = none) :
    receiver.Takes files skill.id skill (Skill.codec.document skill) := by
  have hviolations : skill.violations = [] := Skill.validate_eq_nil.mp hvalid
  have hrefusal : receiver.refusal? skill = none := by
    simp [refusal?, hviolations, Dict.has, hnew]
  have hdone :
      receiver.importDocument files (Skill.codec.document skill) =
        ⟨.ok skill, { receiver with
          skills := receiver.skills.insert skill.id skill }, files⟩ := by
    rw [importDocument_document receiver files hcanonical hstorable]
    simp [register, hrefusal, persist, hunstored, Except.map]
  have hfound : (receiver.skills.insert skill.id skill).find? skill.id =
      some skill := Dict.find?_insert_self _ _ _
  constructor
  case imported => rw [hdone]
  case found => rw [hdone, hfound]
  case exported => rw [hdone, exportDocument, hfound]
  case others =>
    intro other hother
    rw [hdone]
    exact Dict.find?_insert_of_ne hother _ _
  case unstored => rw [hdone, hunstored]
  case files => rw [hdone]

/-! ## Documents that are turned away -/

theorem faults_of_refusal {skill : Skill} {faults : List String}
    (h : receiver.refusal? skill = some (.invalid faults)) :
    faults = skill.validate := by
  rw [refusal?] at h
  split at h
  · simpa using h.symm
  · split at h <;> simp at h

/-- How a registry without a store answers a document. -/
structure Screens (receiver : Registry) (files : FileSystem) (document : Json) :
    Prop where
  /-- What the document lacks is named, and nothing else. -/
  named : lacking document ≠ [] →
    (receiver.importDocument files document).outcome =
      .error (.invalid ((lacking document).map lackingText))
  /-- What is no object lacks all. -/
  shapeless : document.object? = none → lacking document = importedFields
  /-- When nothing is lacking, an import is invalid only through the faults of
  the skill that the document describes. -/
  described : lacking document = [] → ∀ faults,
    (receiver.importDocument files document).outcome =
      .error (.invalid faults) →
    ∃ skill, Skill.codec.read document = .ok skill ∧ faults = skill.validate
  /-- A failure changes nothing. -/
  unchanged : ∀ failure,
    (receiver.importDocument files document).outcome = .error failure →
    (receiver.importDocument files document).registry = receiver ∧
      (receiver.importDocument files document).files = files

theorem screens (hunstored : receiver.store = none) (files : FileSystem)
    (document : Json) : receiver.Screens files document := by
  have hcases := importDocument_cases hunstored files document
  constructor
  case shapeless => exact lacking_of_no_object
  case named =>
    intro hlacking
    rcases hcases with ⟨-, hdone⟩ | ⟨hnone, -⟩
    · rw [hdone]
      rfl
    · exact absurd hnone hlacking
  case described =>
    intro hnone faults herror
    rcases hcases with ⟨hlacking, -⟩ | ⟨-, ⟨fault, -, hdone⟩ |
      ⟨skill, hread, ⟨failure, hrefusal, hdone⟩ | ⟨-, hdone⟩⟩⟩
    · exact absurd hnone hlacking
    · simp [hdone, refuse, Failure.ofDecodeError] at herror
    · obtain rfl : failure = .invalid faults := by
        simpa [hdone, refuse] using herror
      exact ⟨skill, hread, faults_of_refusal hrefusal⟩
    · simp [hdone] at herror
  case unchanged =>
    intro failure herror
    rcases hcases with ⟨-, hdone⟩ | ⟨-, ⟨_, -, hdone⟩ |
      ⟨_, -, ⟨_, -, hdone⟩ | ⟨-, hdone⟩⟩⟩
    · rw [hdone]
      exact ⟨rfl, rfl⟩
    · rw [hdone]
      exact ⟨rfl, rfl⟩
    · rw [hdone]
      exact ⟨rfl, rfl⟩
    · simp [hdone] at herror

/-! ## From one registry to another -/

/-- A registry without a store takes every valid and storable skill that another
registry exports and whose id it has not.  Any document that it cannot import
leaves it as it was, and is told what it lacks. -/
theorem importDocument_exchanges {receiver : Registry}
    (hunstored : receiver.store = none) (files : FileSystem) :
    (∀ first sender : Registry, Opened first → Evolves first sender →
      ∀ id skill, sender.skills.find? id = some skill →
        skill.Canonical → skill.validate = [] → skill.Storable →
        receiver.skills.find? id = none →
        ∃ document, sender.exportDocument id = .ok document ∧
          receiver.Takes files id skill document) ∧
    ∀ document, receiver.Screens files document := by
  constructor
  · intro first sender hopened hevolves id skill hfind hcanonical hvalid
      hstorable hnew
    have hindexed := hevolves.indexed hopened
    obtain rfl : skill.id = id :=
      hindexed.keyed (id, skill) (Dict.mem_of_find? hfind)
    refine ⟨Skill.codec.document skill, ?_,
      takes_document hunstored hcanonical hstorable hvalid hnew⟩
    rw [exportDocument, hfind]
  · exact screens hunstored files

/-- A prompt goes from the registry in which it was registered into one that
holds another skill, which then turns away a document without a name and a
definition. -/
theorem warm_exchanged :
    let sender := (empty.perform .empty (.register warm)).registry
    let receiver : Registry := ⟨[("count", counting)], none⟩
    let nameless : Json := .object [("id", .string "x"), ("name", .null)]
    receiver.store = none ∧
      (∃ document, sender.exportDocument "warm" = .ok document ∧
        receiver.Takes .empty "warm" warm document) ∧
      (receiver.importDocument .empty nameless).outcome =
        .error (.invalid ["skill document is missing name",
          "skill document is missing definition"]) ∧
      (receiver.importDocument .empty nameless).registry = receiver := by
  intro sender receiver nameless
  have hunstored : receiver.store = none := rfl
  obtain ⟨htakes, hscreens⟩ := importDocument_exchanges hunstored .empty
  have hevolves : Evolves .empty sender :=
    .after .start (.register warm) .empty
  have hnamed := (hscreens nameless).named (by decide)
  refine ⟨hunstored, ?_, hnamed, ((hscreens nameless).unchanged _ hnamed).1⟩
  exact htakes .empty sender .empty hevolves "warm" warm rfl warm_canonical
    (by decide) warm_storable rfl

end Registry

end SkillEngine
