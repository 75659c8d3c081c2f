import SkillEngine.Proofs.Codec.Yield
import SkillEngine.Proofs.Skill.Recovery
import SkillEngine.Skill.Library

/-!
# The free documents of skills

Every skill that is read has its free documents in canonical form, and so have
the skills of the library.  The fields of each record are gone through from the
last one to the first.
-/

namespace SkillEngine

/-! ## Parameters and tasks -/

theorem Parameter.codec_yields :
    Parameter.codec.Yields fun parameter =>
      ∀ document ∈ parameter.documents, document.canonical = document := by
  refine Record.Yields.codec ?_
  unfold Parameter.record
  refine .ignore (.seq (.optional Codec.any_yields.list)
    (.seq (.optional Codec.any_yields) ?_))
  refine .ignore (.ignore (.ignore (.map_ignore ?_)))
  intro name description kind required default hdefault allowed hallowed hints
    document hdocument
  rcases List.mem_append.mp hdocument with hdocument | hdocument
  · exact hdefault document (by simpa using hdocument)
  · cases allowed with
    | none => simp at hdocument
    | some values => exact hallowed values rfl document hdocument

theorem ToolTask.record_yields :
    ToolTask.record.Yields fun task =>
      task.parameters.canonical = task.parameters := by
  unfold ToolTask.record
  refine .seq (.withDefault Codec.any_yields rfl) (.map_ignore ?_)
  exact fun _ _ hparameters => hparameters

theorem TransformTask.record_yields :
    TransformTask.record.Yields fun task =>
      task.input.canonical = task.input := by
  unfold TransformTask.record
  refine .ignore (.seq (.required Codec.any_yields) (.map_ignore ?_))
  exact fun _ _ hinput _ => hinput

theorem StepTask.codec_yields :
    StepTask.codec.Yields fun task =>
      ∀ document ∈ task.documents, document.canonical = document := by
  refine Codec.yields_tagged ?_
  simp only [variants, List.forall_mem_cons]
  refine ⟨?_, ?_, ?_, ?_, ?_, by simp⟩
  · exact Record.Yields.variant (Record.yields_true _) (by simp [documents])
  · exact ToolTask.record_yields.variant (by simp [documents])
  · exact Record.Yields.variant (Record.yields_true _) (by simp [documents])
  · exact Record.Yields.variant (Record.yields_true _) (by simp [documents])
  · exact TransformTask.record_yields.variant (by simp [documents])

theorem Step.codec_yields :
    Step.codec.Yields fun step =>
      ∀ document ∈ step.task.documents, document.canonical = document := by
  refine Record.Yields.codec ?_
  unfold Step.record
  refine .ignore (.ignore (.seq (.required StepTask.codec_yields) ?_))
  refine .ignore (.ignore (.ignore (.map_ignore ?_)))
  exact fun _ _ _ _ _ htask _ _ => htask

/-! ## Definitions -/

theorem Prompt.record_yields :
    Prompt.record.Yields fun prompt =>
      ∀ document ∈ (Definition.prompt prompt).documents,
        document.canonical = document := by
  unfold Prompt.record
  refine .ignore (.ignore (.seq
    (.withDefault Parameter.codec_yields.list (by simp)) (.map_ignore ?_)))
  intro template parameters hparameters systemPrompt model
  rw [Definition.documents, List.forall_mem_flatMap]
  exact hparameters

theorem Workflow.record_yields :
    Workflow.record.Yields fun workflow =>
      ∀ document ∈ (Definition.workflow workflow).documents,
        document.canonical = document := by
  unfold Workflow.record
  refine .ignore (.ignore (.ignore (.ignore (.seq
    (.withDefault Parameter.codec_yields.list (by simp))
    (.map (Record.Yields.required Step.codec_yields.list) ?_)))))
  intro steps hsteps parameters hparameters outputs mode onError maxRetries
  rw [Definition.documents, List.forall_mem_append, List.forall_mem_flatMap,
    List.forall_mem_flatMap]
  exact ⟨hparameters, hsteps⟩

theorem ToolUse.record_yields :
    ToolUse.record.Yields fun use =>
      ∀ document ∈ (Definition.tool use).documents,
        document.canonical = document := by
  unfold ToolUse.record
  refine .ignore (.seq (.withDefault Codec.object_yields rfl) (.map_ignore ?_))
  intro tool mapping hmapping processing
  simpa [Definition.documents] using hmapping

theorem SubSkill.codec_yields :
    SubSkill.codec.Yields fun entry =>
      ∀ mapping ∈ entry.mapping,
        (Json.object mapping).canonical = .object mapping := by
  refine Record.Yields.codec ?_
  unfold SubSkill.record
  refine .seq (.optional Codec.object_yields) (.ignore (.map_ignore ?_))
  exact fun _ _ _ hmapping => hmapping

theorem Hybrid.record_yields :
    Hybrid.record.Yields fun hybrid =>
      ∀ document ∈ (Definition.hybrid hybrid).documents,
        document.canonical = document := by
  unfold Hybrid.record
  refine .ignore (.ignore (.map
    (Record.Yields.required SubSkill.codec_yields.list) ?_))
  intro skills hskills orchestration merge document hdocument
  obtain ⟨entry, hentry, hentered⟩ := List.mem_filterMap.mp hdocument
  obtain ⟨mapping, hmapping, rfl⟩ := Option.map_eq_some_iff.mp hentered
  exact hskills entry hentry mapping hmapping

theorem Definition.codec_yields :
    Definition.codec.Yields fun definition =>
      ∀ document ∈ definition.documents, document.canonical = document := by
  refine Codec.yields_tagged ?_
  simp only [variants, List.forall_mem_cons]
  exact ⟨Prompt.record_yields.variant fun _ h => h,
    Workflow.record_yields.variant fun _ h => h,
    ToolUse.record_yields.variant fun _ h => h,
    Hybrid.record_yields.variant fun _ h => h, by simp⟩

/-! ## Skills -/

namespace Skill

/-- The free documents of a skill that is read are in canonical form. -/
theorem codec_yields : codec.Yields Canonical := by
  refine Record.Yields.codec ?_
  unfold record
  refine .ignore (.ignore (.ignore (.ignore (.ignore ?_))))
  refine .seq (.required Definition.codec_yields) ?_
  refine .ignore (.ignore (.ignore (.ignore (.ignore (.ignore
    (.map_ignore ?_))))))
  exact fun _ _ _ _ _ _ _ _ hdefinition _ _ _ _ _ => hdefinition

end Skill

/-- The free documents of the library are in canonical form. -/
theorem SkillLibrary.canonical : ∀ skill ∈ skills, skill.Canonical := by
  have hdocuments : skills.flatMap (·.definition.documents) =
      [.string "", .string "general", .object [("text", .string "$content")]] :=
    rfl
  have hall : ∀ document ∈ skills.flatMap (·.definition.documents),
      document.canonical = document := by
    rw [hdocuments]
    simp only [List.forall_mem_cons]
    exact ⟨rfl, rfl, rfl, by simp⟩
  exact List.forall_mem_flatMap.mp hall

end SkillEngine
