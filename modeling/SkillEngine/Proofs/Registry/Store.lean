import SkillEngine.Proofs.Codec.Text
import SkillEngine.Proofs.Skill.Canonical
import SkillEngine.Proofs.Skill.Storable
import SkillEngine.Registry.Store
import SkillEngine.Skill.Library

/-!
# The document of a store

The skills of a registry make one document, which is printed and parsed again.
It comes back as it was exactly when every skill in it can be stored and it is
nested no deeper than the reader allows.  What the reader does with the texts
of numbers is assumed: `Number.ReadsBack`.
-/

namespace SkillEngine

variable {view : Conveyance} {passage : Passage}

/-! ## Nothing that is written is passed over -/

instance : ExecutionWishes.record.codec.Shaped :=
  have : ExecutionWishes.record.Shaped := by
    unfold ExecutionWishes.record
    infer_instance
  Record.shaped (by decide)

instance : UiWishes.record.codec.Shaped :=
  have : UiWishes.record.Shaped := by
    unfold UiWishes.record
    infer_instance
  Record.shaped (by decide)

instance : Limits.record.codec.Shaped :=
  have : Limits.record.Shaped := by
    unfold Limits.record
    infer_instance
  Record.shaped (by decide)

instance : SkillSettings.codec.Shaped :=
  have : SkillSettings.record.Shaped := by
    unfold SkillSettings.record
    infer_instance
  Record.shaped (by decide)

instance : Category.codec.Shaped :=
  inferInstanceAs (Codec.choice ..).Shaped

instance : Definition.codec.Shaped :=
  inferInstanceAs (Codec.tagged ..).Shaped

instance : Skill.codec.Shaped :=
  have : Skill.record.Shaped := by
    unfold Skill.record
    infer_instance
  Record.shaped (by decide)

/-- How deep the document of a skill is nested. -/
def Skill.depth (skill : Skill) : Nat := (Skill.codec.encode skill).depth

namespace StoreDocument

instance : codec.Shaped :=
  have : record.Shaped := by
    unfold record
    infer_instance
  Record.shaped (by decide)

/-! ## Documents that come back -/

instance : record.Honest := by
  unfold record
  infer_instance

/-- What is read again of a store document. -/
def recovered (document : StoreDocument) : StoreDocument :=
  { document with skills := document.skills.map Skill.recovered }

theorem restore_eq {document : StoreDocument}
    (hcanonical : ∀ skill ∈ document.skills, skill.Canonical) :
    codec.restore view passage document = .ok document.recovered := by
  have hskills : Skill.codec.list.restore view passage document.skills =
      .ok (document.skills.map Skill.recovered) :=
    Codec.restore_list_of_forall fun skill hskill =>
      Skill.restore_eq (hcanonical skill hskill)
  obtain ⟨skills, version⟩ := document
  refine Record.restore_of_outcome (by decide) ?_
  rw [record]
  simp (disch := decide) only [Record.outcome_seq, Record.outcome_map,
    Record.outcome_withDefault, Codec.restore_of_exact, hskills]
  rfl

theorem recovered_eq_self_iff (document : StoreDocument) :
    document.recovered = document ↔
      ∀ skill ∈ document.skills, skill.Storable := by
  obtain ⟨skills, version⟩ := document
  simp only [recovered, StoreDocument.mk.injEq, and_true, listMap_eq_self_iff,
    Skill.recovered_eq_self_iff]

/-- How deep the document of a store is nested. -/
def depth (document : StoreDocument) : Nat := (codec.encode document).depth

/-- In the document of a store a skill stands two levels deeper than in its
own. -/
theorem depth_le_nestingLimit_iff (skills : List Skill) :
    (ofSkills skills).depth ≤ Json.nestingLimit ↔
      ∀ skill ∈ skills, skill.depth + 2 ≤ Json.nestingLimit := by
  have hdepth : (ofSkills skills).depth =
      Json.depthOfItems (skills.map Skill.codec.encode) + 2 := by
    have hencode : codec.encode (ofSkills skills) = .object
        [("skills", .array (skills.map Skill.codec.encode)),
          ("version", Codec.word32.encode newestVersion)] := rfl
    rw [depth, hencode]
    simp [Json.depth, Json.depthOfFields, Codec.encode_word32, Json.nat]
  have hlimit : Json.nestingLimit = 125 + 2 := rfl
  rw [hdepth, hlimit, Nat.add_le_add_iff_right, Json.depthOfItems_le_iff,
    List.forall_mem_map]
  simp only [Nat.add_le_add_iff_right, Skill.depth]

/-- The numbers in the document of a store. -/
def numbers (document : StoreDocument) : List Number :=
  (codec.encode document).numbers

/-- Where the version is the only number, all numbers are read back. -/
theorem readsBack_of_numbers {document : StoreDocument}
    (hnumbers : document.numbers = [.integer 1]) :
    ∀ number ∈ document.numbers, number.ReadsBack := by
  rw [hnumbers]
  exact List.forall_mem_singleton.mpr rfl

/-- The text of a document is read again, up to what was lost on the way, when
the reader allows its nesting, and not read at all otherwise. -/
theorem ofText_text {document : StoreDocument}
    (hcanonical : ∀ skill ∈ document.skills, skill.Canonical)
    (hback : ∀ number ∈ document.numbers, number.ReadsBack) :
    ofText document.text =
      if document.depth ≤ Json.nestingLimit then .ok document.recovered
      else .error .malformed := by
  have hread : ofText document.text =
      codec.ofText (codec.encode document).pretty := rfl
  rw [hread, Codec.ofText_pretty hback, restore_eq hcanonical]
  rfl

/-- The text of a document holds that document when every skill can be stored
and the reader allows its nesting. -/
theorem ofText_text_eq_ok_iff {document : StoreDocument}
    (hcanonical : ∀ skill ∈ document.skills, skill.Canonical)
    (hback : ∀ number ∈ document.numbers, number.ReadsBack) :
    ofText document.text = .ok document ↔
      (∀ skill ∈ document.skills, skill.Storable) ∧
        document.depth ≤ Json.nestingLimit := by
  rw [ofText_text hcanonical hback, ← recovered_eq_self_iff]
  split
  next hdepth => simp [hdepth]
  next hdepth => simp [hdepth]

theorem codec_yields : codec.Yields fun document =>
    ∀ skill ∈ document.skills, skill.Canonical := by
  refine Record.Yields.codec ?_
  unfold record
  refine .ignore (.map (Record.Yields.withDefault Skill.codec_yields.list
    (by simp)) ?_)
  exact fun _ hskills _ => hskills

/-- The free documents of skills that a text holds are in canonical form. -/
theorem canonical_of_ofText {text : String} {document : StoreDocument}
    (hread : ofText text = .ok document) :
    ∀ skill ∈ document.skills, skill.Canonical := by
  rw [ofText] at hread
  split at hread
  next parsed _ => exact codec_yields _ parsed document trivial hread
  next => simp at hread

end StoreDocument

/-- A skill is read again from its document exactly when it can be stored.
Skills are read again from the text of their store exactly when all of them can
be stored and the reader allows the nesting of the text. -/
theorem read_back_iff_storable :
    (∀ skill : Skill, skill.Canonical →
      (Skill.codec.read (Skill.codec.document skill) = .ok skill ↔
        skill.Storable)) ∧
    ∀ skills : List Skill, (∀ skill ∈ skills, skill.Canonical) →
      (∀ number ∈ (StoreDocument.ofSkills skills).numbers,
        number.ReadsBack) →
      (StoreDocument.ofText (StoreDocument.ofSkills skills).text =
          .ok (StoreDocument.ofSkills skills) ↔
        (∀ skill ∈ skills, skill.Storable) ∧
          (StoreDocument.ofSkills skills).depth ≤ Json.nestingLimit) := by
  constructor
  · intro skill hcanonical
    have hkeeps : Skill.codec.Keeps Json.canonicalConveyance .direct skill ↔
        skill.Storable := Skill.keeps_iff hcanonical
    exact hkeeps
  · intro skills hcanonical hback
    exact StoreDocument.ofText_text_eq_ok_iff hcanonical hback

/-- A prompt with a temperature and a parameter with a default. -/
def warm : Skill :=
  (Definition.prompt
    { template := "About {{topic}}"
      parameters := [SkillLibrary.optionalText "topic" "Topic" "tea"]
      systemPrompt := none
      model := some (SkillLibrary.sampling 7 100) }).skill
    "warm" "Warm" "Warm words" .writing []

theorem warm_canonical : warm.Canonical := by
  intro document hdocument
  obtain rfl : document = .string "tea" := by
    simpa [warm, Definition.skill, Definition.documents,
      Parameter.documents, SkillLibrary.optionalText] using hdocument
  rfl

theorem warm_storable : warm.Storable := by
  refine ⟨by decide, by decide, ?_⟩
  simp [warm, Skill.parameters, Definition.skill, SkillLibrary.optionalText]

theorem warm_numbers_readBack :
    ∀ number ∈ (StoreDocument.ofSkills [warm]).numbers, number.ReadsBack := by
  decide +kernel

/-- The prompt is read again from its document and from the text of a store. -/
theorem warm_read_back :
    Skill.codec.read (Skill.codec.document warm) = .ok warm ∧
      StoreDocument.ofText (StoreDocument.ofSkills [warm]).text =
        .ok (StoreDocument.ofSkills [warm]) := by
  obtain ⟨hsingle, hlist⟩ := read_back_iff_storable
  refine ⟨(hsingle warm warm_canonical).mpr warm_storable,
    (hlist [warm] ?_ warm_numbers_readBack).mpr ⟨?_, ?_⟩⟩
  · simpa using warm_canonical
  · simpa using warm_storable
  · decide

/-- Lists inside each other, the innermost empty. -/
def nestedLists : Nat → Json
  | 0 => .array []
  | more + 1 => .array [nestedLists more]

/-- A prompt whose parameter has nested lists as its default. -/
def nestedDefault (more : Nat) : Skill :=
  (Definition.prompt
    { template := "{{p}}"
      parameters := [⟨"p", "", .array, false, some (nestedLists more), none, none⟩]
      systemPrompt := none
      model := none }).skill
    "deep" "Deep" "Deep" .custom []

theorem nestedDefault_canonical (more : Nat) : (nestedDefault more).Canonical := by
  have hnested : (nestedLists more).canonical = nestedLists more := by
    induction more with
    | zero => rfl
    | succ more ih =>
        rw [nestedLists, Json.canonical_array, List.map_singleton, ih]
  intro document hdocument
  obtain rfl : document = nestedLists more := by
    simpa [nestedDefault, Definition.skill, Definition.documents,
      Parameter.documents] using hdocument
  exact hnested

theorem nestedDefault_storable (more : Nat) : (nestedDefault more).Storable := by
  refine ⟨fun _ h => ?_, fun _ h => ?_, ?_⟩
  · simp [Skill.temperatures, nestedDefault, Definition.skill,
      Definition.choices] at h
  · simp [Skill.bounds, nestedDefault, Definition.skill, Skill.parameters] at h
  · cases more <;>
      simp [nestedDefault, Skill.parameters, Definition.skill, nestedLists]

/-- A skill that can be stored need not come back from the text of a store, in
which it may be nested too deep. -/
theorem nestedDefault_not_read_back :
    (nestedDefault 121).Canonical ∧ (nestedDefault 121).Storable ∧
      (∀ number ∈ (StoreDocument.ofSkills [nestedDefault 121]).numbers,
        number.ReadsBack) ∧
      StoreDocument.ofText (StoreDocument.ofSkills [nestedDefault 121]).text ≠
        .ok (StoreDocument.ofSkills [nestedDefault 121]) := by
  have hcanonical := nestedDefault_canonical 121
  have hback : ∀ number ∈ (StoreDocument.ofSkills [nestedDefault 121]).numbers,
      number.ReadsBack :=
    StoreDocument.readsBack_of_numbers (by decide +kernel)
  refine ⟨hcanonical, nestedDefault_storable 121, hback, ?_⟩
  intro hread
  have hdepth := ((StoreDocument.ofText_text_eq_ok_iff
    (by simpa [StoreDocument.ofSkills] using hcanonical) hback).mp hread).2
  have hdeep : (StoreDocument.ofSkills [nestedDefault 121]).depth = 128 := by
    decide +kernel
  rw [hdeep] at hdepth
  exact absurd hdepth (by decide)

end SkillEngine
