import SkillEngine.Codec.Tagged
import SkillEngine.Skill.Basic

/-!
# Skill documents

The document form of skills and of their parts.  One description of each record serves writing
and reading.
-/

namespace SkillEngine

/-- Categories by name. -/
def Category.codec : Codec Category := .choice Category.all Category.name

/-- Kinds of values by name. -/
def ValueKind.codec : Codec ValueKind := .choice ValueKind.all ValueKind.name

/-- Kinds of steps by name. -/
def StepKind.codec : Codec StepKind := .choice StepKind.all StepKind.name

/-- The fields of a model choice. -/
def ModelChoice.record : Record ModelChoice ModelChoice :=
  ModelChoice.mk <$> .optional "provider" .text (·.provider)
    <*> .optional "model" .text (·.model)
    <*> .optional "temperature" .single (·.temperature)
    <*> .optional "maxTokens" .word32 (·.maxTokens)

/-- Model choices. -/
def ModelChoice.codec : Codec ModelChoice := ModelChoice.record.codec

/-- The fields of the hints for a parameter. -/
def ParameterHints.record : Record ParameterHints ParameterHints :=
  ParameterHints.mk <$> .optional "label" .text (·.label)
    <*> .optional "placeholder" .text (·.placeholder)
    <*> .optional "multiline" .bool (·.multiline)
    <*> .optional "min" .double (·.min)
    <*> .optional "max" .double (·.max)

/-- Hints for a parameter. -/
def ParameterHints.codec : Codec ParameterHints := ParameterHints.record.codec

/-- The fields of a parameter. -/
def Parameter.record : Record Parameter Parameter :=
  Parameter.mk <$> .required "name" .text (·.name)
    <*> .withDefault "description" .text "" (·.description)
    <*> .required "type" ValueKind.codec (·.kind)
    <*> .withDefault "required" .bool false (·.required)
    <*> .optional "default" .any (·.default)
    <*> .optional "enum" (.list .any) (·.allowed)
    <*> .optional "ui" ParameterHints.codec (·.hints)

/-- Parameters. -/
def Parameter.codec : Codec Parameter := Parameter.record.codec

/-- The fields of a declared output. -/
def OutputSpec.record : Record OutputSpec OutputSpec :=
  OutputSpec.mk <$> .required "name" .text (·.name)
    <*> .withDefault "description" .text "" (·.description)
    <*> .required "type" ValueKind.codec (·.kind)

/-- Declared outputs. -/
def OutputSpec.codec : Codec OutputSpec := OutputSpec.record.codec

/-- The fields of a prompt. -/
def Prompt.record : Record Prompt Prompt :=
  Prompt.mk <$> .required "template" .text (·.template)
    <*> .withDefault "parameters" Parameter.codec.list [] (·.parameters)
    <*> .optional "systemPrompt" .text (·.systemPrompt)
    <*> .optional "model" ModelChoice.codec (·.model)

/-- The fields of a prompt task. -/
def PromptTask.record : Record PromptTask PromptTask :=
  PromptTask.mk <$> .required "template" .text (·.template)
    <*> .optional "model" ModelChoice.codec (·.model)

/-- The fields of a tool task. -/
def ToolTask.record : Record ToolTask ToolTask :=
  ToolTask.mk <$> .required "tool" .text (·.tool)
    <*> .withDefault "parameters" .any .null (·.parameters)

/-- The fields of a condition task. -/
def ConditionTask.record : Record ConditionTask ConditionTask :=
  ConditionTask.mk <$> .required "expression" .text (·.expression)
    <*> .required "thenStep" .text (·.thenStep)
    <*> .optional "elseStep" .text (·.elseStep)

/-- The fields of a loop task. -/
def LoopTask.record : Record LoopTask LoopTask :=
  LoopTask.mk <$> .required "items" .text (·.items)
    <*> .required "step" .text (·.step)
    <*> .required "variable" .text (·.itemName)

/-- The fields of a transform task. -/
def TransformTask.record : Record TransformTask TransformTask :=
  TransformTask.mk <$> .required "transform" .text (·.transform)
    <*> .required "input" .any (·.input)
    <*> .optional "output" .text (·.output)

/-- The kinds of tasks. -/
def StepTask.variants : List (Variant StepTask) :=
  [PromptTask.record.variant "prompt" .prompt, ToolTask.record.variant "tool" .tool,
    ConditionTask.record.variant "condition" .condition, LoopTask.record.variant "loop" .loop,
    TransformTask.record.variant "transform" .transform]

/-- The tag and the fields of a task. -/
def StepTask.write : StepTask → String × List (String × Json)
  | prompt task => ("prompt", PromptTask.record.write task)
  | tool task => ("tool", ToolTask.record.write task)
  | condition task => ("condition", ConditionTask.record.write task)
  | loop task => ("loop", LoopTask.record.write task)
  | transform task => ("transform", TransformTask.record.write task)

/-- Tasks. -/
def StepTask.codec : Codec StepTask := .tagged StepTask.variants StepTask.write

/-- The fields of a step. -/
def Step.record : Record Step Step :=
  Step.mk <$> .required "id" .text (·.id)
    <*> .required "name" .text (·.name)
    <*> .optional "description" .text (·.description)
    <*> .required "type" StepKind.codec (·.kind)
    <*> .required "config" StepTask.codec (·.task)
    <*> .unlessEmpty "dependsOn" .text (·.dependsOn)
    <*> .optional "condition" .text (·.condition)

/-- Steps. -/
def Step.codec : Codec Step := Step.record.codec

/-- The fields of a workflow. -/
def Workflow.record : Record Workflow Workflow :=
  Workflow.mk <$> .required "steps" Step.codec.list (·.steps)
    <*> .withDefault "parameters" Parameter.codec.list [] (·.parameters)
    <*> .unlessEmpty "outputs" OutputSpec.codec (·.outputs)
    <*> .withDefault "mode" (.choice RunMode.all RunMode.name) .sequential (·.mode)
    <*> .withDefault "onError" (.choice ErrorPolicy.all ErrorPolicy.name) .stop (·.onError)
    <*> .optional "maxRetries" .word32 (·.maxRetries)

/-- Workflows that stand alone. -/
def Workflow.codec : Codec Workflow := Workflow.record.codec

/-- The fields of the processing of a result. -/
def ResultProcessing.record : Record ResultProcessing ResultProcessing :=
  ResultProcessing.mk <$> .required "format" (.choice ResultFormat.all ResultFormat.name) (·.format)
    <*> .optional "template" .text (·.template)

/-- Processings of results. -/
def ResultProcessing.codec : Codec ResultProcessing := ResultProcessing.record.codec

/-- The fields of a tool's use. -/
def ToolUse.record : Record ToolUse ToolUse :=
  ToolUse.mk <$> .required "tool" .text (·.tool)
    <*> .withDefault "parameterMapping" .object [] (·.mapping)
    <*> .optional "resultProcessing" ResultProcessing.codec (·.processing)

/-- Uses of tools that stand alone. -/
def ToolUse.codec : Codec ToolUse := ToolUse.record.codec

/-- The fields of an entry of a hybrid. -/
def SubSkill.record : Record SubSkill SubSkill :=
  SubSkill.mk <$> .required "skillId" .text (·.skill)
    <*> .optional "alias" .text (·.label)
    <*> .optional "parameterMapping" .object (·.mapping)

/-- Entries of hybrids. -/
def SubSkill.codec : Codec SubSkill := SubSkill.record.codec

/-- The fields of an orchestration. -/
def Orchestration.record : Record Orchestration Orchestration :=
  Orchestration.mk
    <$> .withDefault "mode" (.choice OrchestrationMode.all OrchestrationMode.name) .sequential
      (·.mode)
    <*> .optional "decisionLogic" .text (·.decisionLogic)

/-- The fields of a merge. -/
def ResultMerge.record : Record ResultMerge ResultMerge :=
  ResultMerge.mk
    <$> .required "strategy" (.choice MergeStrategy.all MergeStrategy.name) (·.strategy)
    <*> .optional "template" .text (·.template)

/-- Merges. -/
def ResultMerge.codec : Codec ResultMerge := ResultMerge.record.codec

/-- The fields of a hybrid. -/
def Hybrid.record : Record Hybrid Hybrid :=
  Hybrid.mk <$> .required "skills" SubSkill.codec.list (·.skills)
    <*> .withDefault "orchestration" Orchestration.record.codec ⟨.sequential, none⟩
      (·.orchestration)
    <*> .optional "resultMerge" ResultMerge.codec (·.merge)

/-- Hybrids that stand alone. -/
def Hybrid.codec : Codec Hybrid := Hybrid.record.codec

/-- The kinds of definitions. -/
def Definition.variants : List (Variant Definition) :=
  [Prompt.record.variant "prompt" .prompt, Workflow.record.variant "workflow" .workflow,
    ToolUse.record.variant "tool" .tool, Hybrid.record.variant "hybrid" .hybrid]

/-- The tag and the fields of a definition. -/
def Definition.write : Definition → String × List (String × Json)
  | prompt value => ("prompt", Prompt.record.write value)
  | workflow value => ("workflow", Workflow.record.write value)
  | tool value => ("tool", ToolUse.record.write value)
  | hybrid value => ("hybrid", Hybrid.record.write value)

/-- Definitions. -/
def Definition.codec : Codec Definition := .tagged Definition.variants Definition.write

/-- The fields of the wishes for an execution. -/
def ExecutionWishes.record : Record ExecutionWishes ExecutionWishes :=
  ExecutionWishes.mk <$> .optional "timeout" .word64 (·.timeout)
    <*> .optional "retryOnError" .bool (·.retryOnError)
    <*> .optional "maxRetries" .word32 (·.maxRetries)

/-- The fields of the wishes for a presentation. -/
def UiWishes.record : Record UiWishes UiWishes :=
  UiWishes.mk <$> .optional "position" (.choice UiPosition.all UiPosition.name) (·.position)
    <*> .optional "icon" .text (·.icon)
    <*> .optional "color" .text (·.color)

/-- The fields of limits. -/
def Limits.record : Record Limits Limits :=
  Limits.mk <$> .optional "maxInputLength" .word64 (·.maxInputLength)
    <*> .optional "maxOutputLength" .word64 (·.maxOutputLength)
    <*> .optional "allowedUsers" (.list .text) (·.allowedUsers)

/-- The fields of settings. -/
def SkillSettings.record : Record SkillSettings SkillSettings :=
  SkillSettings.mk <$> .optional "execution" ExecutionWishes.record.codec (·.execution)
    <*> .optional "ui" UiWishes.record.codec (·.ui)
    <*> .optional "permissions" (.list .text) (·.permissions)
    <*> .optional "limits" Limits.record.codec (·.limits)

/-- Settings. -/
def SkillSettings.codec : Codec SkillSettings := SkillSettings.record.codec

/-- The fields of a skill. -/
def Skill.record : Record Skill Skill :=
  Skill.mk <$> .required "id" .text (·.id)
    <*> .required "name" .text (·.name)
    <*> .withDefault "description" .text "" (·.description)
    <*> .withDefault "category" Category.codec .custom (·.category)
    <*> .withDefault "version" .text "1.0.0" (·.version)
    <*> .optional "author" .text (·.author)
    <*> .withDefault "enabled" .bool true (·.enabled)
    <*> .required "definition" Definition.codec (·.definition)
    <*> .optional "config" SkillSettings.codec (·.settings)
    <*> .optional "permissions" (.list .text) (·.permissions)
    <*> .unlessEmpty "tags" .text (·.tags)
    <*> .optional "icon" .text (·.icon)
    <*> .optional "shortcut" .text (·.shortcut)

/-- Skills. -/
def Skill.codec : Codec Skill := Skill.record.codec

end SkillEngine
