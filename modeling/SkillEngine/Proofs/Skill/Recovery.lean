import SkillEngine.Proofs.Codec.Tagged
import SkillEngine.Proofs.Outcome
import SkillEngine.Skill.Codec

/-!
# What is read of a skill again

What is read of a skill from what became of its document.  Null stands for a
number that is not finite and for what is absent, so a temperature, a bound or
a default that is written as null is lost; nothing else is.  The free documents
inside a skill are taken in canonical form, which is the form that every
document has that was ever read.

What is read again of a value is the value `recovered`.  Most parts of a skill
are always read as they were, which an instance says; the parts with numbers,
defaults or such parts in them have an equation of their own, up to
`Skill.restore_eq`.
-/

namespace SkillEngine

/-! ## The free documents of a skill -/

def Parameter.documents (parameter : Parameter) : List Json :=
  parameter.default.toList ++ parameter.allowed.getD []

def StepTask.documents : StepTask → List Json
  | .tool task => [task.parameters]
  | .transform task => [task.input]
  | .prompt _ | .condition _ | .loop _ => []

def Definition.documents : Definition → List Json
  | .prompt value => value.parameters.flatMap Parameter.documents
  | .workflow value =>
    value.parameters.flatMap Parameter.documents ++
      value.steps.flatMap (·.task.documents)
  | .tool value => [.object value.mapping]
  | .hybrid value => value.skills.filterMap (·.mapping.map .object)

/-- The free documents of a skill are in canonical form. -/
def Skill.Canonical (skill : Skill) : Prop :=
  ∀ document ∈ skill.definition.documents, document.canonical = document

/-! ## What is read again -/

/-- A model choice loses a temperature that is not finite. -/
def ModelChoice.recovered (choice : ModelChoice) : ModelChoice :=
  { choice with temperature := choice.temperature.filter (·.isFinite) }

/-- The hints for a parameter lose the bounds that are not finite. -/
def ParameterHints.recovered (hints : ParameterHints) : ParameterHints :=
  { hints with
    min := hints.min.filter (·.isFinite)
    max := hints.max.filter (·.isFinite) }

/-- A parameter loses a default that is null. -/
def Parameter.recovered (parameter : Parameter) : Parameter :=
  { parameter with
    default := parameter.default.filter (!·.isNull)
    hints := parameter.hints.map ParameterHints.recovered }

def PromptTask.recovered (task : PromptTask) : PromptTask :=
  { task with model := task.model.map ModelChoice.recovered }

def StepTask.recovered : StepTask → StepTask
  | .prompt task => .prompt task.recovered
  | .tool task => .tool task
  | .condition task => .condition task
  | .loop task => .loop task
  | .transform task => .transform task

def Step.recovered (step : Step) : Step :=
  { step with task := step.task.recovered }

def Prompt.recovered (prompt : Prompt) : Prompt :=
  { prompt with
    parameters := prompt.parameters.map Parameter.recovered
    model := prompt.model.map ModelChoice.recovered }

def Workflow.recovered (workflow : Workflow) : Workflow :=
  { workflow with
    steps := workflow.steps.map Step.recovered
    parameters := workflow.parameters.map Parameter.recovered }

def Definition.recovered : Definition → Definition
  | .prompt value => .prompt value.recovered
  | .workflow value => .workflow value.recovered
  | .tool value => .tool value
  | .hybrid value => .hybrid value

/-- What is read again of a skill. -/
def Skill.recovered (skill : Skill) : Skill :=
  { skill with definition := skill.definition.recovered }

variable {view : Conveyance} {passage : Passage}

/-! ## Choices -/

section Choices

open Codec (Exact)

instance : Exact view Category.codec :=
  .choice fun value => by cases value <;> rfl

instance : Exact view ValueKind.codec :=
  .choice fun value => by cases value <;> rfl

instance : Exact view StepKind.codec :=
  .choice fun value => by cases value <;> rfl

instance : Exact view (.choice RunMode.all RunMode.name) :=
  .choice fun value => by cases value <;> rfl

instance : Exact view (.choice ErrorPolicy.all ErrorPolicy.name) :=
  .choice fun value => by cases value <;> rfl

instance : Exact view (.choice ResultFormat.all ResultFormat.name) :=
  .choice fun value => by cases value <;> rfl

instance : Exact view (.choice OrchestrationMode.all OrchestrationMode.name) :=
  .choice fun value => by cases value <;> rfl

instance : Exact view (.choice MergeStrategy.all MergeStrategy.name) :=
  .choice fun value => by cases value <;> rfl

instance : Exact view (.choice UiPosition.all UiPosition.name) :=
  .choice fun value => by cases value <;> rfl

end Choices

/-! ## Records without numbers and free documents -/

instance : OutputSpec.record.Honest := by
  unfold OutputSpec.record
  infer_instance

instance : Codec.Exact view OutputSpec.codec :=
  have : Record.Complete view OutputSpec.record fun value => value := by
    unfold OutputSpec.record
    infer_instance
  Record.exact (by decide)

instance : ConditionTask.record.Honest := by
  unfold ConditionTask.record
  infer_instance

instance : Codec.Exact view ConditionTask.record.codec :=
  have : Record.Complete view ConditionTask.record fun value => value := by
    unfold ConditionTask.record
    infer_instance
  Record.exact (by decide)

instance : LoopTask.record.Honest := by
  unfold LoopTask.record
  infer_instance

instance : Codec.Exact view LoopTask.record.codec :=
  have : Record.Complete view LoopTask.record fun value => value := by
    unfold LoopTask.record
    infer_instance
  Record.exact (by decide)

instance : ResultProcessing.record.Honest := by
  unfold ResultProcessing.record
  infer_instance

instance : Codec.Exact view ResultProcessing.codec :=
  have : Record.Complete view ResultProcessing.record fun value => value := by
    unfold ResultProcessing.record
    infer_instance
  Record.exact (by decide)

instance : Orchestration.record.Honest := by
  unfold Orchestration.record
  infer_instance

instance : Codec.Exact view Orchestration.record.codec :=
  have : Record.Complete view Orchestration.record fun value => value := by
    unfold Orchestration.record
    infer_instance
  Record.exact (by decide)

instance : ResultMerge.record.Honest := by
  unfold ResultMerge.record
  infer_instance

instance : Codec.Exact view ResultMerge.codec :=
  have : Record.Complete view ResultMerge.record fun value => value := by
    unfold ResultMerge.record
    infer_instance
  Record.exact (by decide)

instance : ExecutionWishes.record.Honest := by
  unfold ExecutionWishes.record
  infer_instance

instance : Codec.Exact view ExecutionWishes.record.codec :=
  have : Record.Complete view ExecutionWishes.record fun value => value := by
    unfold ExecutionWishes.record
    infer_instance
  Record.exact (by decide)

instance : UiWishes.record.Honest := by
  unfold UiWishes.record
  infer_instance

instance : Codec.Exact view UiWishes.record.codec :=
  have : Record.Complete view UiWishes.record fun value => value := by
    unfold UiWishes.record
    infer_instance
  Record.exact (by decide)

instance : Limits.record.Honest := by
  unfold Limits.record
  infer_instance

instance : Codec.Exact view Limits.record.codec :=
  have : Record.Complete view Limits.record fun value => value := by
    unfold Limits.record
    infer_instance
  Record.exact (by decide)

instance : SkillSettings.record.Honest := by
  unfold SkillSettings.record
  infer_instance

instance : Codec.Exact view SkillSettings.codec :=
  have : Record.Complete view SkillSettings.record fun value => value := by
    unfold SkillSettings.record
    infer_instance
  Record.exact (by decide)

/-! ## Numbers -/

instance : ModelChoice.record.Honest := by
  unfold ModelChoice.record
  infer_instance

theorem ModelChoice.restore_eq (choice : ModelChoice) :
    ModelChoice.codec.restore view passage choice = .ok choice.recovered := by
  obtain ⟨provider, model, temperature, maxTokens⟩ := choice
  refine Record.restore_of_outcome (by decide) ?_
  rw [record]
  simp (disch := decide) only [Record.outcome_seq, Record.outcome_map,
    Record.outcome_optional, Codec.restore_option_of_exact,
    Codec.restore_option_single]
  rfl

theorem ModelChoice.restore_option_eq (held : Option ModelChoice) :
    ModelChoice.codec.option.restore view passage held =
      .ok (held.map ModelChoice.recovered) :=
  Codec.Solid.restore_option ModelChoice.record.solid fun choice _ =>
    choice.restore_eq

instance : ParameterHints.record.Honest := by
  unfold ParameterHints.record
  infer_instance

theorem ParameterHints.restore_eq (hints : ParameterHints) :
    ParameterHints.codec.restore view passage hints = .ok hints.recovered := by
  obtain ⟨label, placeholder, multiline, min, max⟩ := hints
  refine Record.restore_of_outcome (by decide) ?_
  rw [record]
  simp (disch := decide) only [Record.outcome_seq, Record.outcome_map,
    Record.outcome_optional, Codec.restore_option_of_exact,
    Codec.restore_option_double]
  rfl

theorem ParameterHints.restore_option_eq (held : Option ParameterHints) :
    ParameterHints.codec.option.restore view passage held =
      .ok (held.map ParameterHints.recovered) :=
  Codec.Solid.restore_option ParameterHints.record.solid fun hints _ =>
    hints.restore_eq

/-! ## Parameters -/

instance : Parameter.record.Honest := by
  unfold Parameter.record
  infer_instance

/-- A default that is null is read as none. -/
theorem restore_default {default : Option Json}
    (hcanonical : ∀ document ∈ default, document.canonical = document) :
    Codec.any.option.restore view passage default =
      .ok (default.filter (!·.isNull)) := by
  refine Codec.restore_option_of_filter (fun document hdocument => ?_)
    fun document hdocument _ => Codec.restore_any (hcanonical document hdocument)
  rw [Codec.isNull_any (hcanonical document hdocument), Bool.not_not]

theorem restore_allowed {allowed : Option (List Json)}
    (hcanonical : ∀ document ∈ allowed.getD [],
      document.canonical = document) :
    (Codec.list .any).option.restore view passage allowed = .ok allowed := by
  have h : (Codec.list .any).option.restore view passage allowed =
      .ok (allowed.map (List.map id)) := by
    refine (Codec.solid_list .any).restore_option ?_
    rintro values rfl
    exact Codec.restore_list_of_forall fun value hvalue =>
      Codec.restore_any (hcanonical value hvalue)
  rwa [List.map_id_fun, Option.map_id] at h

theorem Parameter.restore_eq {parameter : Parameter}
    (hcanonical : ∀ document ∈ parameter.documents,
      document.canonical = document) :
    Parameter.codec.restore view passage parameter =
      .ok parameter.recovered := by
  rw [documents, List.forall_mem_append] at hcanonical
  obtain ⟨hdefault, hallowed⟩ := hcanonical
  simp only [Option.mem_toList] at hdefault
  obtain ⟨name, description, kind, required, default, allowed, hints⟩ :=
    parameter
  refine Record.restore_of_outcome (by decide) ?_
  rw [record]
  simp (disch := decide) only [Record.outcome_seq, Record.outcome_map,
    Record.outcome_required, Record.outcome_withDefault,
    Record.outcome_optional, Codec.restore_of_exact,
    ParameterHints.restore_option_eq, restore_default hdefault,
    restore_allowed hallowed]
  rfl

theorem Parameter.restore_list_eq {parameters : List Parameter}
    (hcanonical : ∀ document ∈ parameters.flatMap documents,
      document.canonical = document) :
    Parameter.codec.list.restore view passage parameters =
      .ok (parameters.map recovered) := by
  rw [List.forall_mem_flatMap] at hcanonical
  exact Codec.restore_list_of_forall fun parameter hparameter =>
    Parameter.restore_eq (hcanonical parameter hparameter)

/-! ## Tasks and steps -/

instance : PromptTask.record.Honest := by
  unfold PromptTask.record
  infer_instance

instance : ToolTask.record.Honest := by
  unfold ToolTask.record
  infer_instance

instance : TransformTask.record.Honest := by
  unfold TransformTask.record
  infer_instance

theorem PromptTask.outcome_eq (task : PromptTask) :
    PromptTask.record.outcome view passage task = .ok task.recovered := by
  obtain ⟨template, model⟩ := task
  rw [record]
  simp (disch := decide) only [Record.outcome_seq, Record.outcome_map,
    Record.outcome_required, Record.outcome_optional, Codec.restore_of_exact,
    ModelChoice.restore_option_eq]
  rfl

theorem ToolTask.outcome_eq {task : ToolTask}
    (hcanonical : task.parameters.canonical = task.parameters) :
    ToolTask.record.outcome view passage task = .ok task := by
  obtain ⟨tool, parameters⟩ := task
  rw [record]
  simp (disch := decide) only [Record.outcome_seq, Record.outcome_map,
    Record.outcome_required, Record.outcome_withDefault,
    Codec.restore_of_exact, Codec.restore_any hcanonical]
  rfl

theorem TransformTask.outcome_eq {task : TransformTask}
    (hcanonical : task.input.canonical = task.input) :
    TransformTask.record.outcome view passage task = .ok task := by
  obtain ⟨transform, input, output⟩ := task
  rw [record]
  simp (disch := decide) only [Record.outcome_seq, Record.outcome_map,
    Record.outcome_required, Record.outcome_optional, Codec.restore_of_exact,
    Codec.restore_option_of_exact, Codec.restore_any hcanonical]
  rfl

theorem ConditionTask.outcome_eq (task : ConditionTask) :
    ConditionTask.record.outcome view passage task = .ok task := by
  obtain ⟨expression, thenStep, elseStep⟩ := task
  rw [record]
  simp (disch := decide) only [Record.outcome_seq, Record.outcome_map,
    Record.outcome_required, Record.outcome_optional, Codec.restore_of_exact,
    Codec.restore_option_of_exact]
  rfl

theorem LoopTask.outcome_eq (task : LoopTask) :
    LoopTask.record.outcome view passage task = .ok task := by
  obtain ⟨items, step, itemName⟩ := task
  rw [record]
  simp (disch := decide) only [Record.outcome_seq, Record.outcome_map,
    Record.outcome_required, Codec.restore_of_exact]
  rfl

theorem StepTask.restore_eq {task : StepTask}
    (hcanonical : ∀ document ∈ task.documents,
      document.canonical = document) :
    StepTask.codec.restore view passage task = .ok task.recovered := by
  cases task with
  | prompt task =>
      exact Codec.restore_tagged PromptTask.record prompt
        (by decide) (by decide) rfl rfl task.outcome_eq
  | tool task =>
      exact Codec.restore_tagged ToolTask.record tool
        (by decide) (by decide) rfl rfl
        (ToolTask.outcome_eq (hcanonical _ (List.mem_singleton_self _)))
  | condition task =>
      exact Codec.restore_tagged ConditionTask.record condition
        (by decide) (by decide) rfl rfl task.outcome_eq
  | loop task =>
      exact Codec.restore_tagged LoopTask.record loop
        (by decide) (by decide) rfl rfl task.outcome_eq
  | transform task =>
      exact Codec.restore_tagged TransformTask.record transform
        (by decide) (by decide) rfl rfl
        (TransformTask.outcome_eq (hcanonical _ (List.mem_singleton_self _)))

instance : Step.record.Honest := by
  unfold Step.record
  infer_instance

theorem Step.restore_eq {step : Step}
    (hcanonical : ∀ document ∈ step.task.documents,
      document.canonical = document) :
    Step.codec.restore view passage step = .ok step.recovered := by
  obtain ⟨id, name, description, kind, task, dependsOn, condition⟩ := step
  refine Record.restore_of_outcome (by decide) ?_
  rw [record]
  simp (disch := decide) only [Record.outcome_seq, Record.outcome_map,
    Record.outcome_required, Record.outcome_optional,
    Record.outcome_unlessEmpty, Codec.restore_of_exact,
    Codec.restore_option_of_exact, StepTask.restore_eq hcanonical]
  rfl

/-! ## Definitions -/

instance : Prompt.record.Honest := by
  unfold Prompt.record
  infer_instance

instance : Workflow.record.Honest := by
  unfold Workflow.record
  infer_instance

instance : ToolUse.record.Honest := by
  unfold ToolUse.record
  infer_instance

instance : SubSkill.record.Honest := by
  unfold SubSkill.record
  infer_instance

instance : Hybrid.record.Honest := by
  unfold Hybrid.record
  infer_instance

theorem Prompt.outcome_eq {prompt : Prompt}
    (hcanonical : ∀ document ∈ (Definition.prompt prompt).documents,
      document.canonical = document) :
    Prompt.record.outcome view passage prompt = .ok prompt.recovered := by
  obtain ⟨template, parameters, systemPrompt, model⟩ := prompt
  rw [record]
  simp (disch := decide) only [Record.outcome_seq, Record.outcome_map,
    Record.outcome_required, Record.outcome_withDefault,
    Record.outcome_optional, Codec.restore_of_exact,
    Codec.restore_option_of_exact, ModelChoice.restore_option_eq,
    Parameter.restore_list_eq hcanonical]
  rfl

theorem Workflow.outcome_eq {workflow : Workflow}
    (hcanonical : ∀ document ∈ (Definition.workflow workflow).documents,
      document.canonical = document) :
    Workflow.record.outcome view passage workflow =
      .ok workflow.recovered := by
  rw [Definition.documents, List.forall_mem_append] at hcanonical
  have hsteps : Step.codec.list.restore view passage workflow.steps =
      .ok (workflow.steps.map Step.recovered) :=
    Codec.restore_list_of_forall fun step hstep => Step.restore_eq
      (List.forall_mem_flatMap.mp hcanonical.2 step hstep)
  have hparameters : Parameter.codec.list.restore view passage
      workflow.parameters =
      .ok (workflow.parameters.map Parameter.recovered) :=
    Parameter.restore_list_eq hcanonical.1
  obtain ⟨steps, parameters, outputs, mode, onError, maxRetries⟩ := workflow
  rw [record]
  simp (disch := decide) only [Record.outcome_seq, Record.outcome_map,
    Record.outcome_required, Record.outcome_withDefault,
    Record.outcome_optional, Record.outcome_unlessEmpty,
    Codec.restore_of_exact, Codec.restore_option_of_exact, hsteps, hparameters]
  rfl

theorem ToolUse.outcome_eq {use : ToolUse}
    (hcanonical : (Json.object use.mapping).canonical = .object use.mapping) :
    ToolUse.record.outcome view passage use = .ok use := by
  obtain ⟨tool, mapping, processing⟩ := use
  rw [record]
  simp (disch := decide) only [Record.outcome_seq, Record.outcome_map,
    Record.outcome_required, Record.outcome_withDefault,
    Record.outcome_optional, Codec.restore_of_exact,
    Codec.restore_option_of_exact, Codec.restore_object hcanonical]
  rfl

theorem SubSkill.restore_eq {entry : SubSkill}
    (hcanonical : ∀ mapping ∈ entry.mapping,
      (Json.object mapping).canonical = .object mapping) :
    SubSkill.codec.restore view passage entry = .ok entry := by
  have hmapping : Codec.object.option.restore view passage entry.mapping =
      .ok (entry.mapping.map id) :=
    Codec.solid_object.restore_option fun mapping hmapping =>
      Codec.restore_object (hcanonical mapping hmapping)
  rw [Option.map_id] at hmapping
  obtain ⟨skill, label, mapping⟩ := entry
  refine Record.restore_of_outcome (by decide) ?_
  rw [record]
  simp (disch := decide) only [Record.outcome_seq, Record.outcome_map,
    Record.outcome_required, Record.outcome_optional, Codec.restore_of_exact,
    Codec.restore_option_of_exact, hmapping]
  rfl

theorem Hybrid.outcome_eq {hybrid : Hybrid}
    (hcanonical : ∀ document ∈ (Definition.hybrid hybrid).documents,
      document.canonical = document) :
    Hybrid.record.outcome view passage hybrid = .ok hybrid := by
  have hentries : SubSkill.codec.list.restore view passage hybrid.skills =
      .ok (hybrid.skills.map id) := by
    refine Codec.restore_list_of_forall fun entry hentry => ?_
    refine SubSkill.restore_eq fun mapping hmapping => hcanonical _ ?_
    exact List.mem_filterMap.mpr
      ⟨entry, hentry, by simp [Option.mem_def.mp hmapping]⟩
  rw [List.map_id] at hentries
  obtain ⟨skills, orchestration, merge⟩ := hybrid
  rw [record]
  simp (disch := decide) only [Record.outcome_seq, Record.outcome_map,
    Record.outcome_required, Record.outcome_withDefault,
    Record.outcome_optional, Codec.restore_of_exact,
    Codec.restore_option_of_exact, hentries]
  rfl

theorem Definition.restore_eq {definition : Definition}
    (hcanonical : ∀ document ∈ definition.documents,
      document.canonical = document) :
    Definition.codec.restore view passage definition =
      .ok definition.recovered := by
  cases definition with
  | prompt value =>
      exact Codec.restore_tagged Prompt.record prompt
        (by decide) (by decide) rfl rfl (Prompt.outcome_eq hcanonical)
  | workflow value =>
      exact Codec.restore_tagged Workflow.record workflow
        (by decide) (by decide) rfl rfl (Workflow.outcome_eq hcanonical)
  | tool value =>
      exact Codec.restore_tagged ToolUse.record tool
        (by decide) (by decide) rfl rfl
        (ToolUse.outcome_eq (hcanonical _ (List.mem_singleton_self _)))
  | hybrid value =>
      exact Codec.restore_tagged Hybrid.record hybrid
        (by decide) (by decide) rfl rfl (Hybrid.outcome_eq hcanonical)

/-! ## Skills -/

instance : Skill.record.Honest := by
  unfold Skill.record
  infer_instance

/-- A skill is read again as what is recovered of it. -/
theorem Skill.restore_eq {skill : Skill} (hcanonical : skill.Canonical) :
    Skill.codec.restore view passage skill = .ok skill.recovered := by
  have hdefinition : Definition.codec.restore view passage skill.definition =
      .ok skill.definition.recovered := Definition.restore_eq hcanonical
  obtain ⟨id, name, description, category, version, author, enabled, definition,
    settings, permissions, tags, icon, shortcut⟩ := skill
  refine Record.restore_of_outcome (by decide) ?_
  rw [record]
  simp (disch := decide) only [Record.outcome_seq, Record.outcome_map,
    Record.outcome_required, Record.outcome_withDefault,
    Record.outcome_optional, Record.outcome_unlessEmpty,
    Codec.restore_of_exact, Codec.restore_option_of_exact, hdefinition]
  rfl

end SkillEngine
