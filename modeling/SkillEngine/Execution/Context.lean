import SkillEngine.Json.Basic

/-!
# Contexts

What one run of a skill is given and what it keeps: the input, the surroundings, the choice of a
text generator, and the state that changes on the way.  Also the result that a run ends with.
-/

namespace SkillEngine

/-- The text generator that a run asks for when its skill names none. -/
structure AiConfig where
  provider : String
  model : Option String

/-- A place in a document. -/
structure CursorPosition where
  line : UInt32
  ch : UInt32

/-- What surrounds a run: the open document, the selection in it, the cursor, the workspace. -/
structure Environment where
  documentPath : Option String
  selection : Option String
  cursorPosition : Option CursorPosition
  workspacePath : Option String

/-- No surroundings. -/
def Environment.empty : Environment := ⟨none, none, none, none⟩

/-- How urgent a log line is. -/
inductive LogLevel where
  | info
  | warn
  | error
  deriving DecidableEq

namespace LogLevel

/-- All levels. -/
def all : List LogLevel := [info, warn, error]

/-- The name of a level. -/
def name : LogLevel → String
  | info => "info"
  | warn => "warn"
  | error => "error"

end LogLevel

/-- A line for the log. -/
structure LogLine where
  level : LogLevel
  text : String

/-- A line as text. -/
def LogLine.message (line : LogLine) : String := line.level.name ++ ": " ++ line.text

/-- What a tool learns about the run that calls it. -/
structure ToolContext where
  aiConfig : AiConfig
  environment : Environment

/-- The part of a context that changes during a run. -/
structure ExecutionState where
  /-- The outputs of the steps that the last workflow completed. -/
  stepOutputs : Json.Object
  /-- The outputs of sub-skills by name. -/
  bindings : Json.Object
  currentStep : Option String
  /-- The tokens spent so far, counted in 64 bits. -/
  tokensUsed : UInt64

/-- The state at the start. -/
def ExecutionState.empty : ExecutionState := ⟨[], [], none, 0⟩

/-- Everything that a run works with. -/
structure Context where
  input : Json.Object
  environment : Environment
  aiConfig : AiConfig
  state : ExecutionState

namespace Context

/-- The context of a sub-skill: another input and a fresh state in the same surroundings. -/
def fork (context : Context) (input : Json.Object) : Context :=
  { context with input := input, state := .empty }

/-- What a tool is told. -/
def toolContext (context : Context) : ToolContext := ⟨context.aiConfig, context.environment⟩

end Context

/-- Figures about a run. -/
structure ExecutionDetails where
  stepsExecuted : Nat
  /-- Milliseconds. -/
  executionTime : Nat
  tokensUsed : Option UInt64

/-- What a run ends with.  A failed result has no output. -/
structure SkillResult where
  success : Bool
  output : Option Json
  error : Option String
  details : Option ExecutionDetails
  intermediateResults : Option Json.Object

namespace SkillResult

/-- The result of a run that failed before it began. -/
def failed (error : String) : SkillResult := ⟨false, none, some error, none, none⟩

/-- The tokens that the run spent. -/
def tokensUsed (result : SkillResult) : UInt64 :=
  (result.details.bind (·.tokensUsed)).getD 0

end SkillResult

end SkillEngine
