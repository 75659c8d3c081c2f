import SkillEngine.Execution.Codec
import SkillEngine.Proofs.Codec.Text
import SkillEngine.Proofs.Execution.Canonical
import SkillEngine.Proofs.Execution.StepCount

/-!
# Results that are read again

A result is written as a document, in which null stands for what is absent.  So
an output that is null is read as no output, and everything else is read as it
was.  Runs do end with such an output: a tool answers null, a step copies a
null, or the last step of a workflow was passed over.
-/

namespace SkillEngine

variable {view : Conveyance} {passage : Passage}

/-! ## What is read again -/

instance : Codec.Exact view .count where
  keeps := by
    intro passage value
    rw [Codec.Keeps, Codec.restore, Codec.count, Codec.carry_nat]
    simp [Json.nat]
  solid := by
    intro value
    rw [Codec.count, Codec.carry_nat]
    rfl

instance : Codec.count.Shaped := .of_whole rfl

instance : Codec.any.Shaped := .of_whole rfl

instance : Codec.object.Shaped := .of_whole rfl

instance : ExecutionDetails.record.Honest := by
  unfold ExecutionDetails.record
  infer_instance

instance : Codec.Exact view ExecutionDetails.codec :=
  have : Record.Complete view ExecutionDetails.record fun value => value := by
    unfold ExecutionDetails.record
    infer_instance
  Record.exact (by decide)

instance : ExecutionDetails.codec.Shaped :=
  have : ExecutionDetails.record.Shaped := by
    unfold ExecutionDetails.record
    infer_instance
  Record.shaped (by decide)

namespace SkillResult

instance : record.Honest := by
  unfold record
  infer_instance

instance : codec.Shaped :=
  have : record.Shaped := by
    unfold record
    infer_instance
  Record.shaped (by decide)

/-- What is read of a result again: an output that is null is lost. -/
def recovered (result : SkillResult) : SkillResult :=
  { result with output := result.output.filter (!·.isNull) }

theorem restore_eq {result : SkillResult} (hcanonical : result.Canonical) :
    codec.restore view passage result = .ok result.recovered := by
  obtain ⟨houtput, hintermediate⟩ := hcanonical
  have hfiltered : Codec.any.option.restore view passage result.output =
      .ok (result.output.filter (!·.isNull)) := restore_default houtput
  have hresults :
      Codec.object.option.restore view passage result.intermediateResults =
        .ok (result.intermediateResults.map id) :=
    Codec.solid_object.restore_option fun results hmem =>
      Codec.restore_object
        (Json.canonical_object_iff.mpr (hintermediate results hmem))
  rw [Option.map_id] at hresults
  obtain ⟨success, output, error, details, intermediateResults⟩ := result
  refine Record.restore_of_outcome (by decide) ?_
  rw [record]
  simp (disch := decide) only [Record.outcome_seq, Record.outcome_map,
    Record.outcome_required, Record.outcome_optional, Codec.restore_of_exact,
    Codec.restore_option_of_exact, hfiltered, hresults]
  rfl

theorem recovered_eq_self_iff (result : SkillResult) :
    result.recovered = result ↔ result.output ≠ some .null := by
  obtain ⟨success, output, error, details, intermediateResults⟩ := result
  cases output with
  | none => simp [recovered]
  | some value => cases value <;> simp [recovered, Option.filter, Json.isNull]

/-- What can be read of a result again. -/
structure Reread (result : SkillResult) : Prop where
  /-- From its document the result is read up to an output that is null. -/
  document : codec.read (codec.document result) = .ok result.recovered
  /-- From its text likewise, when the reader allows the nesting. -/
  text : (∀ number ∈ (codec.encode result).numbers, number.ReadsBack) →
    codec.ofText (codec.encode result).pretty =
      if (codec.encode result).depth ≤ Json.nestingLimit then
        .ok result.recovered
      else .error .malformed
  same : result.recovered = result ↔ result.output ≠ some .null
  /-- Of a run that succeeded an output is read again unless it is null. -/
  output : result.success = true →
    (result.recovered.output.isSome = true ↔ result.output ≠ some .null)

theorem reread {result : SkillResult} (hcanonical : result.Canonical)
    (hsucceeds : result.success = true → result.output.isSome = true) :
    result.Reread := by
  constructor
  case document =>
    have hrestore : codec.restore Json.canonicalConveyance .direct result =
        .ok result.recovered := restore_eq hcanonical
    exact hrestore
  case text =>
    intro hback
    rw [Codec.ofText_pretty hback, restore_eq hcanonical]
  case same => exact result.recovered_eq_self_iff
  case output =>
    intro hsuccess
    obtain ⟨value, houtput⟩ := Option.isSome_iff_exists.mp (hsucceeds hsuccess)
    rw [recovered, houtput]
    cases value <;> simp [Option.filter, Json.isNull]

/-- The result with the time that its run took. -/
def timed (result : SkillResult) (time : Nat) : SkillResult :=
  { result with
    details := result.details.map fun details =>
      { details with executionTime := time } }

theorem Canonical.timed {result : SkillResult} (h : result.Canonical)
    (time : Nat) : (result.timed time).Canonical :=
  ⟨h.output, h.intermediateResults⟩

end SkillResult

/-! ## Results of runs -/

variable {σ : Type}

/-- A run that succeeds has an output, which may be null. -/
theorem isSome_output_executeWithin (backends : Backends σ)
    (skills : Dict Skill) (levels : Nat) (id : String) (context : Context)
    (world : σ) :
    let result :=
      (executeWithin backends skills levels id context world).value.1
    result.success = true → result.output.isSome = true := by
  intro result hsuccess
  rcases executeWithin_cases backends skills levels id context world with
    ⟨failure, -, hran⟩ | ⟨skill, left, -, rfl, -, hran⟩
  · simp [result, hran, SkillResult.failed] at hsuccess
  · rcases Skill.run_cases backends (executeWithin backends skills left) skill
      context world with ⟨failure, -, hrun⟩ | ⟨-, hrun⟩
    · simp [result, hran, hrun, Skill.conclude] at hsuccess
    · rcases hinner : (skill.definition.run backends
        (executeWithin backends skills left) (skill.prepared context)
        world).value with ⟨failure | done, after⟩
      · simp [result, hran, hrun, hinner, Skill.conclude] at hsuccess
      · simp [result, hran, hrun, hinner, Skill.conclude]

/-- Whatever tools and generators answer, however skills are nested, and
whatever time the run takes: its result is read again up to an output that is
null. -/
theorem executeWithin_reread (backends : Backends σ)
    (htools : backends.tools.AnswersCanonical) {skills : Dict Skill}
    (hskills : ∀ entry ∈ skills, entry.2.Canonical) (levels : Nat)
    (id : String) {context : Context} (hinput : Json.Tidy context.input)
    (world : σ) (time : Nat) :
    ((executeWithin backends skills levels id context world).value.1.timed
      time).Reread := by
  have hcanonical := answersCanonical_executeWithin htools hskills levels id
    context world hinput
  exact SkillResult.reread (hcanonical.timed time)
    (isSome_output_executeWithin backends skills levels id context world)

/-- A workflow of one step, which is passed over when it fails. -/
def lone (task : StepTask) : Skill :=
  (Definition.workflow
    { steps := [⟨"only", "Only", none, task.kind, task, [], none⟩]
      parameters := []
      outputs := []
      mode := .sequential
      onError := .carryOn
      maxRetries := none }).skill "lone" "Lone" "One step" .custom []

/-- A generator that gives its prompt back, and the built-in tools. -/
def equipped : Backends Scripted.World :=
  ⟨Hybrid.echoing.router,
    (Host.builtin ⟨"linux", "x86_64", "unix", 4, "release"⟩).registry⟩

/-- The result of the workflow. -/
def loneResult (task : StepTask) : SkillResult :=
  (execute equipped [("lone", lone task)] "lone" Hybrid.rain
    Scripted.World.empty).value.1

/-- Count the words of the input. -/
def wordCount : StepTask :=
  .tool ⟨"word_count", .object [("text", .string "$text")]⟩

/-- The result of a step that counts words is read again as it was. -/
theorem wordCount_reread :
    let result := (loneResult wordCount).timed 5
    result.success = true ∧ result.output.isSome = true ∧
      SkillResult.codec.read (SkillResult.codec.document result) = .ok result ∧
      SkillResult.codec.ofText (SkillResult.codec.encode result).pretty =
        .ok result := by
  intro result
  have hskills : ∀ entry ∈ [("lone", lone wordCount)], entry.2.Canonical := by
    intro entry hentry document hdocument
    obtain rfl := List.mem_singleton.mp hentry
    obtain rfl := List.mem_singleton.mp hdocument
    rfl
  have hinput : Json.Tidy Hybrid.rain.input :=
    Json.canonical_object_iff.mp rfl
  have hreread : result.Reread := executeWithin_reread equipped
    (Host.answersCanonical_builtin _) hskills (maxDepth + 1) "lone" hinput
    Scripted.World.empty 5
  have houtput : result.output.map Json.isNull = some false := by
    decide +kernel
  have hsame : result.recovered = result := by
    refine hreread.same.mpr fun hnull => ?_
    rw [hnull] at houtput
    simp [Json.isNull] at houtput
  have hback : ∀ number ∈ (SkillResult.codec.encode result).numbers,
      number.ReadsBack := by
    decide +kernel
  have hdepth : (SkillResult.codec.encode result).depth ≤
      Json.nestingLimit := by
    decide +kernel
  have hdocument := hreread.document
  have htext := hreread.text hback
  rw [hsame] at hdocument
  rw [if_pos hdepth, hsame] at htext
  exact ⟨by decide +kernel, by decide +kernel, hdocument, htext⟩

/-- When the only step of a workflow is passed over, the run succeeds with null
as its output, and a result without an output is read again. -/
theorem passedOver_loses_output :
    let result := loneResult (.condition ⟨"true", "only", none⟩)
    result.success = true ∧ result.output = some .null ∧
      ∃ other, SkillResult.codec.read (SkillResult.codec.document result) =
        .ok other ∧ other ≠ result ∧ other.output = none := by
  intro result
  have houtput : (loneResult (.condition ⟨"true", "only", none⟩)).output =
      some .null := rfl
  have hread : SkillResult.codec.read (SkillResult.codec.document
      (loneResult (.condition ⟨"true", "only", none⟩))) =
        .ok (loneResult (.condition ⟨"true", "only", none⟩)).recovered := rfl
  refine ⟨rfl, houtput, _, hread, ?_, ?_⟩
  · rw [Ne, SkillResult.recovered_eq_self_iff, not_not]
    exact houtput
  · rw [SkillResult.recovered, houtput]
    rfl

end SkillEngine
