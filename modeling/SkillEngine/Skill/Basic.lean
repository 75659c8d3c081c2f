import SkillEngine.Json.Basic

/-!
# Skills

A skill is a named unit of work: a prompt for a text generator, a workflow of steps, the use of
one tool, or a hybrid that runs other skills.
-/

namespace SkillEngine

/-- What a skill is good for. -/
inductive Category where
  | writing
  | editing
  | analysis
  | automation
  | custom
  deriving DecidableEq, Inhabited

/-- The settings of a generation that a prompt can pin. -/
structure ModelChoice where
  provider : Option String
  model : Option String
  temperature : Option Single
  maxTokens : Option UInt32

/-- The kinds of values that parameters and outputs have. -/
inductive ValueKind where
  | string
  | number
  | boolean
  | object
  | array
  deriving DecidableEq

/-- Hints for those who show a form for a parameter. -/
structure ParameterHints where
  label : Option String
  placeholder : Option String
  multiline : Option Bool
  min : Option Double
  max : Option Double

/-- A declared input of a skill. -/
structure Parameter where
  name : String
  description : String
  kind : ValueKind
  required : Bool
  default : Option Json
  allowed : Option (List Json)
  hints : Option ParameterHints

/-- A declared output of a workflow. -/
structure OutputSpec where
  name : String
  description : String
  kind : ValueKind

/-- A skill that fills a template and hands it to a text generator. -/
structure Prompt where
  template : String
  parameters : List Parameter
  systemPrompt : Option String
  model : Option ModelChoice

/-- The kinds of steps. -/
inductive StepKind where
  | prompt
  | tool
  | condition
  | loop
  | transform
  deriving DecidableEq

/-- A step that generates text from a template. -/
structure PromptTask where
  template : String
  model : Option ModelChoice

/-- A step that calls a tool, with an object of parameters or a reference to one. -/
structure ToolTask where
  tool : String
  parameters : Json

/-- A step that would branch. -/
structure ConditionTask where
  expression : String
  thenStep : String
  elseStep : Option String

/-- A step that would repeat another. -/
structure LoopTask where
  items : String
  step : String
  itemName : String

/-- A step that transforms a value. -/
structure TransformTask where
  transform : String
  input : Json
  output : Option String

/-- What a step does. -/
inductive StepTask where
  | prompt (task : PromptTask)
  | tool (task : ToolTask)
  | condition (task : ConditionTask)
  | loop (task : LoopTask)
  | transform (task : TransformTask)

/-- The kind of a task. -/
def StepTask.kind : StepTask → StepKind
  | prompt _ => .prompt
  | tool _ => .tool
  | condition _ => .condition
  | loop _ => .loop
  | transform _ => .transform

/-- A step of a workflow.  Its kind is declared beside its task, and the two may disagree. -/
structure Step where
  id : String
  name : String
  description : Option String
  kind : StepKind
  task : StepTask
  dependsOn : List String
  condition : Option String

/-- How the steps of a workflow are meant to run. -/
inductive RunMode where
  | sequential
  | parallel
  | conditional
  deriving DecidableEq

/-- What a workflow does when a step fails. -/
inductive ErrorPolicy where
  | stop
  | carryOn
  | retry
  deriving DecidableEq

/-- A skill that runs steps one after another. -/
structure Workflow where
  steps : List Step
  parameters : List Parameter
  outputs : List OutputSpec
  mode : RunMode
  onError : ErrorPolicy
  maxRetries : Option UInt32

/-- The forms of a tool's result. -/
inductive ResultFormat where
  | raw
  | text
  | json
  | markdown
  deriving DecidableEq

/-- How the result of a tool is brought into form. -/
structure ResultProcessing where
  format : ResultFormat
  template : Option String

/-- A skill that calls one tool. -/
structure ToolUse where
  tool : String
  mapping : Json.Object
  processing : Option ResultProcessing

/-- One entry of a hybrid: the skill to run and how its input is made. -/
structure SubSkill where
  skill : String
  /-- The name under which the output is kept, if it is not the id of the skill. -/
  label : Option String
  mapping : Option Json.Object

/-- How the entries of a hybrid are meant to run. -/
inductive OrchestrationMode where
  | sequential
  | parallel
  | dynamic
  deriving DecidableEq

/-- The orchestration of a hybrid. -/
structure Orchestration where
  mode : OrchestrationMode
  decisionLogic : Option String

/-- The ways to combine outputs. -/
inductive MergeStrategy where
  | append
  | merge
  | template
  | custom
  deriving DecidableEq

/-- How the outputs of a hybrid are combined. -/
structure ResultMerge where
  strategy : MergeStrategy
  template : Option String

/-- A skill that runs other skills. -/
structure Hybrid where
  skills : List SubSkill
  orchestration : Orchestration
  merge : Option ResultMerge

/-- What a skill does. -/
inductive Definition where
  | prompt (prompt : Prompt)
  | workflow (workflow : Workflow)
  | tool (use : ToolUse)
  | hybrid (hybrid : Hybrid)

/-- Where a skill shows up for users. -/
inductive UiPosition where
  | toolbar
  | menu
  | context
  deriving DecidableEq

/-- Wishes for the execution of a skill. -/
structure ExecutionWishes where
  timeout : Option UInt64
  retryOnError : Option Bool
  maxRetries : Option UInt32

/-- Wishes for the presentation of a skill. -/
structure UiWishes where
  position : Option UiPosition
  icon : Option String
  color : Option String

/-- Limits on the use of a skill. -/
structure Limits where
  maxInputLength : Option UInt64
  maxOutputLength : Option UInt64
  allowedUsers : Option (List String)

/-- Settings that a skill carries along. -/
structure SkillSettings where
  execution : Option ExecutionWishes
  ui : Option UiWishes
  permissions : Option (List String)
  limits : Option Limits

/-- A skill. -/
structure Skill where
  id : String
  name : String
  description : String
  category : Category
  version : String
  author : Option String
  enabled : Bool
  definition : Definition
  settings : Option SkillSettings
  permissions : Option (List String)
  tags : List String
  icon : Option String
  shortcut : Option String

namespace Category

/-- All categories. -/
def all : List Category := [writing, editing, analysis, automation, custom]

/-- The name of a category. -/
def name : Category → String
  | writing => "writing"
  | editing => "editing"
  | analysis => "analysis"
  | automation => "automation"
  | custom => "custom"

end Category

namespace ValueKind

/-- All kinds of values. -/
def all : List ValueKind := [string, number, boolean, object, array]

/-- The name of a kind. -/
def name : ValueKind → String
  | string => "string"
  | number => "number"
  | boolean => "boolean"
  | object => "object"
  | array => "array"

/-- The name of a kind as a heading. -/
def title : ValueKind → String
  | string => "String"
  | number => "Number"
  | boolean => "Boolean"
  | object => "Object"
  | array => "Array"

/-- The kind of a value; null counts as a string. -/
def of : Json → ValueKind
  | .number _ => number
  | .bool _ => boolean
  | .object _ => object
  | .array _ => array
  | .string _ | .null => string

end ValueKind

namespace StepKind

/-- All kinds of steps. -/
def all : List StepKind := [prompt, tool, condition, loop, transform]

/-- The name of a kind. -/
def name : StepKind → String
  | prompt => "prompt"
  | tool => "tool"
  | condition => "condition"
  | loop => "loop"
  | transform => "transform"

end StepKind

namespace RunMode

/-- All modes. -/
def all : List RunMode := [sequential, parallel, conditional]

/-- The name of a mode. -/
def name : RunMode → String
  | sequential => "sequential"
  | parallel => "parallel"
  | conditional => "conditional"

/-- The name of a mode as a heading. -/
def title : RunMode → String
  | sequential => "Sequential"
  | parallel => "Parallel"
  | conditional => "Conditional"

end RunMode

namespace ErrorPolicy

/-- All policies. -/
def all : List ErrorPolicy := [stop, carryOn, retry]

/-- The name of a policy. -/
def name : ErrorPolicy → String
  | stop => "stop"
  | carryOn => "continue"
  | retry => "retry"

end ErrorPolicy

namespace ResultFormat

/-- All forms. -/
def all : List ResultFormat := [raw, text, json, markdown]

/-- The name of a form. -/
def name : ResultFormat → String
  | raw => "raw"
  | text => "text"
  | json => "json"
  | markdown => "markdown"

end ResultFormat

namespace OrchestrationMode

/-- All modes. -/
def all : List OrchestrationMode := [sequential, parallel, dynamic]

/-- The name of a mode. -/
def name : OrchestrationMode → String
  | sequential => "sequential"
  | parallel => "parallel"
  | dynamic => "dynamic"

/-- The name of a mode as a heading. -/
def title : OrchestrationMode → String
  | sequential => "Sequential"
  | parallel => "Parallel"
  | dynamic => "Dynamic"

end OrchestrationMode

namespace MergeStrategy

/-- All strategies. -/
def all : List MergeStrategy := [append, merge, template, custom]

/-- The name of a strategy. -/
def name : MergeStrategy → String
  | append => "append"
  | merge => "merge"
  | template => "template"
  | custom => "custom"

end MergeStrategy

namespace UiPosition

/-- All positions. -/
def all : List UiPosition := [toolbar, menu, context]

/-- The name of a position. -/
def name : UiPosition → String
  | toolbar => "toolbar"
  | menu => "menu"
  | context => "context"

end UiPosition

/-- The name of a kind of skill. -/
def Definition.kindName : Definition → String
  | prompt _ => "prompt"
  | workflow _ => "workflow"
  | tool _ => "tool"
  | hybrid _ => "hybrid"

/-- The declared inputs of a skill.  Only prompts and workflows declare any. -/
def Skill.parameters (skill : Skill) : List Parameter :=
  match skill.definition with
  | .prompt prompt => prompt.parameters
  | .workflow workflow => workflow.parameters
  | .tool _ | .hybrid _ => []

end SkillEngine
