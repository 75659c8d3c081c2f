import SkillEngine.Proofs.Codec.Reads
import SkillEngine.Proofs.Json.Echo
import SkillEngine.Proofs.Registry.Store

/-!
# Ids in the text of a store

Whatever becomes of the numbers in the text of a store, and even if a part of
it cannot be read, nothing is read from it under an id that was not written.
The text of a single skill is no text of a store.
-/

namespace SkillEngine

open Json (Echoes EchoFields)

/-! ## The id of a skill -/

/-- A skill is read under the id that its document has. -/
theorem Skill.record_reads :
    Skill.record.Reads fun passage find skill =>
      ∃ document, find "id" = some document ∧
        Codec.text.decode passage document = .ok skill.id := by
  unfold Skill.record
  iterate 12 refine .skip ?_
  refine .map fun passage find id hread => ?_
  dsimp only
  intros
  exact Record.reads_required "id" .text Skill.id passage find id hread

theorem Skill.find?_id (skill : Skill) :
    Dict.find? (Skill.record.write skill) "id" = some (.string skill.id) := by
  rfl

theorem Codec.decode_text_echo {passage : Passage} {given found : String}
    {document : Json} (hecho : Echoes (.string given) document)
    (hread : Codec.text.decode passage document = .ok found) : found = given := by
  cases hecho with
  | lost => cases hread
  | string => exact (Except.ok.inj hread).symm

/-- A skill that is read from an echo of its document has its id. -/
theorem Skill.id_of_echo {passage : Passage} {skill found : Skill}
    {document : Json} (hecho : Echoes (Skill.codec.encode skill) document)
    (hread : Skill.codec.decode passage document = .ok found) :
    found.id = skill.id := by
  cases hecho with
  | lost => cases hread
  | object hnames hvalues =>
      obtain ⟨held, hheld, hid⟩ := Skill.record_reads.decode_object hread
      have hfind := EchoFields.find? ⟨hnames, hvalues⟩ "id"
      rw [hheld, Skill.find?_id] at hfind
      cases hfind with
      | some hecho => exact Codec.decode_text_echo hecho hid

theorem Skill.ids_of_echo {passage : Passage} {skills found : List Skill}
    {documents : List Json}
    (hecho : List.Forall₂ Echoes (skills.map Skill.codec.encode) documents)
    (hread : documents.mapM (Skill.codec.decode passage) = .ok found) :
    found.map (·.id) = skills.map (·.id) := by
  induction skills generalizing documents found with
  | nil =>
      cases hecho
      obtain rfl := Except.ok.inj hread
      rfl
  | cons skill skills ih =>
      cases hecho with
      | cons hfirst hmore =>
          rw [List.mapM_cons] at hread
          obtain ⟨first, hskill, hread⟩ := bind_eq_ok_iff.mp hread
          obtain ⟨more, hskills, hread⟩ := bind_eq_ok_iff.mp hread
          obtain rfl := Except.ok.inj hread
          rw [List.map_cons, List.map_cons, Skill.id_of_echo hfirst hskill,
            ih hmore hskills]

/-! ## The document of a skill -/

/-- The fields of the document of a skill, in canonical form. -/
def Skill.fields (skill : Skill) : Json.Object :=
  Dict.ofList (Json.canonicalFields (Skill.record.write skill))

theorem Skill.document_eq (skill : Skill) :
    Skill.codec.document skill = .object skill.fields := rfl

theorem Skill.find?_version (skill : Skill) :
    Dict.find? skill.fields "version" = some (.string skill.version) := by
  have hnames : (Dict.names (Json.canonicalFields
      (Skill.record.write skill))).Nodup := by
    rw [Json.canonicalFields_eq_mapValues, Dict.names_mapValues]
    exact Record.nodup_written (by decide) skill
  have hwritten : Dict.find? (Skill.record.write skill) "version" =
      some (.string skill.version) := rfl
  rw [Skill.fields, Dict.find?_ofList hnames,
    Json.canonicalFields_eq_mapValues, Dict.find?_mapValues, hwritten]
  rfl

/-! ## Texts of stores -/

namespace StoreDocument

theorem record_reads :
    record.Reads fun passage find document =>
      (∀ listed, find "skills" = some listed →
        Skill.codec.list.decode passage listed = .ok document.skills) ∧
      ∀ numbered, find "version" = some numbered →
        Codec.word32.decode passage numbered = .ok document.version := by
  unfold record
  refine .seq (Record.reads_field "version" .word32 _ _ StoreDocument.version)
    (.map ?_)
  intro passage find skills hskills version hversion
  exact ⟨Record.reads_field "skills" _ _ _ StoreDocument.skills passage find
    skills hskills, hversion⟩

/-- The skills that are read from the text of a store have the ids of those that
were written. -/
theorem ids_of_ofText {document found : StoreDocument}
    (h : ofText document.text = .ok found) :
    found.skills.map (·.id) = document.skills.map (·.id) := by
  rw [ofText] at h
  split at h
  next parsed hparsed =>
    have hecho : Echoes (codec.encode document) parsed :=
      Json.echoes_of_parse? hparsed
    cases hecho with
    | lost => cases h
    | object hnames hvalues =>
        obtain ⟨hskills, -⟩ := record_reads.decode_object h
        have hfind := EchoFields.find? ⟨hnames, hvalues⟩ "skills"
        have hwritten : Dict.find? (record.write document) "skills" =
            some (.array (document.skills.map Skill.codec.encode)) := rfl
        rw [hwritten] at hfind
        generalize hlisted : Dict.find? _ "skills" = listed at hfind
        cases hfind with
        | some hecho =>
            have hread := hskills _ hlisted
            cases hecho with
            | lost => cases hread
            | array hitems => exact Skill.ids_of_echo hitems hread
  next => cases h

/-- The text of a skill is not the text of a store: its version is no number. -/
theorem ofText_skill (skill : Skill) :
    ∃ error, ofText (Skill.codec.document skill).pretty = .error error := by
  cases h : ofText (Skill.codec.document skill).pretty with
  | error error => exact ⟨error, rfl⟩
  | ok found =>
      exfalso
      rw [ofText] at h
      split at h
      next parsed hparsed =>
        have hecho : Echoes (Skill.codec.document skill) parsed :=
          Json.echoes_of_parse? hparsed
        rw [Skill.document_eq] at hecho
        cases hecho with
        | lost => cases h
        | object hnames hvalues =>
            obtain ⟨-, hversion⟩ := record_reads.decode_object h
            have hfind := EchoFields.find? ⟨hnames, hvalues⟩ "version"
            rw [Skill.find?_version] at hfind
            generalize hnumbered : Dict.find? _ "version" = numbered at hfind
            cases hfind with
            | some hecho =>
                have hread := hversion _ hnumbered
                cases hecho <;> cases hread
      next => cases h

end StoreDocument

end SkillEngine
