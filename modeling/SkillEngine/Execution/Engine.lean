import SkillEngine.Execution.Hybrid
import SkillEngine.Execution.Workflow
import SkillEngine.Skill.Validation

/-!
# Execution

Running a skill of a registry by its id.  A skill runs when it is registered, enabled, not nested
too deep and valid; then the defaults of its parameters are filled in, and its definition says the
rest.  Running never raises: every failure becomes a failed result.
-/

namespace SkillEngine

/-- How deep skills may be nested. -/
def maxDepth : Nat := 16

/-- A value that counts as given. -/
def isGiven : Option Json → Bool
  | some value => !value.isNull
  | none => false

/-- Fill in the defaults of parameters that are not given, and stop at the first one that is
required and has none.  The input keeps what was filled in before. -/
def applyParameters : List Parameter → Json.Object → Except Failure Unit × Json.Object
  | [], input => (.ok (), input)
  | parameter :: parameters, input =>
    if isGiven (input.find? parameter.name) then applyParameters parameters input
    else
      match parameter.default with
      | some value => applyParameters parameters (input.insert parameter.name value)
      | none =>
        if parameter.required then (.error (.missingParameter parameter.name), input)
        else applyParameters parameters input

/-- What a definition leads to: the output, the number of steps, and the results on the way. -/
structure Dispatched where
  output : Json
  steps : Nat
  intermediate : Option Json.Object

namespace Context

/-- Charge tokens to the context. -/
def spend (context : Context) (tokens : UInt64) : Context :=
  { context with state := { context.state with tokensUsed := context.state.tokensUsed + tokens } }

/-- Set the outputs of completed steps. -/
def withOutputs (context : Context) (outputs : Json.Object) : Context :=
  { context with state := { context.state with stepOutputs := outputs } }

end Context

namespace Prompt

variable {σ : Type}

/-- Run a prompt. -/
def run (backends : Backends σ) (prompt : Prompt) (context : Context) :
    Run σ (Except Failure Dispatched × Context) := do
  match ← backends.generate context (Template.fill prompt.template context.input)
    prompt.systemPrompt prompt.model with
  | .ok output => return (.ok ⟨output.value, 1, none⟩, context.spend output.tokens)
  | .error failure => return (.error failure, context)

end Prompt

namespace Workflow

variable {σ : Type}

/-- Run a workflow as a skill.  The results are handed over on success and stay in the context on
failure. -/
def dispatch (backends : Backends σ) (workflow : Workflow) (context : Context) :
    Run σ (Except Failure Dispatched × Context) := do
  let (outcome, progress) ← workflow.run backends context []
  let context := { context with state := progress.state }
  match outcome with
  | .ok output =>
    return (.ok ⟨output, progress.results.length, some progress.results⟩, context.withOutputs [])
  | .error failure => return (.error failure, context.withOutputs progress.results)

end Workflow

namespace ToolUse

variable {σ : Type}

/-- The output of a tool's use from the result of the tool. -/
def output (use : ToolUse) (result : Json) : Json :=
  match use.processing with
  | some processing => processing.apply result
  | none => result

/-- Use a tool. -/
def run (backends : Backends σ) (use : ToolUse) (context : Context) :
    Run σ (Except Failure Dispatched × Context) := do
  let answer ←
    backends.callTool context use.tool (Reference.resolveAll use.mapping context.input [])
  return (answer.map fun result => ⟨use.output result, 1, none⟩, context)

end ToolUse

namespace Hybrid

variable {σ : Type}

/-- Run a hybrid as a skill. -/
def dispatch (runSkill : Runner σ) (hybrid : Hybrid) (context : Context) :
    Run σ (Except Failure Dispatched × Context) := do
  let (outcome, context) ← hybrid.run runSkill context
  return (outcome.map fun output => ⟨output, hybrid.skills.length, none⟩, context)

end Hybrid

namespace Definition

variable {σ : Type}

/-- Do what a definition says. -/
def run (backends : Backends σ) (runSkill : Hybrid.Runner σ) (definition : Definition)
    (context : Context) : Run σ (Except Failure Dispatched × Context) :=
  match definition with
  | .prompt value => value.run backends context
  | .workflow value => value.dispatch backends context
  | .tool value => value.run backends context
  | .hybrid value => value.dispatch runSkill context

end Definition

namespace Skill

variable {σ : Type}

/-- Fill in the parameters of a skill and do what it says. -/
def dispatch (backends : Backends σ) (runSkill : Hybrid.Runner σ) (skill : Skill)
    (context : Context) : Run σ (Except Failure Dispatched × Context) :=
  match applyParameters skill.parameters context.input with
  | (.error failure, input) => return (.error failure, { context with input := input })
  | (.ok (), input) => skill.definition.run backends runSkill { context with input := input }

/-- The tokens spent since a count of them, as figures show them: only when there are any. -/
def shownTokens (before after : UInt64) : Option UInt64 :=
  if before < after then some (after - before) else none

/-- The result of a dispatched skill, and the context that it leaves.  `before` is the number of
tokens spent before it.  Time is not measured here. -/
def conclude (before : UInt64) : Except Failure Dispatched × Context → SkillResult × Context
  | (.ok done, context) =>
    (⟨true, some done.output, none,
      some ⟨done.steps, 0, shownTokens before context.state.tokensUsed⟩, done.intermediate⟩,
      context)
  | (.error failure, context) =>
    (⟨false, none, some failure.message,
      some ⟨context.state.stepOutputs.length, 0, shownTokens before context.state.tokensUsed⟩,
      none⟩,
      context.withOutputs [])

/-- Run a skill that passed all checks. -/
def run (backends : Backends σ) (runSkill : Hybrid.Runner σ) (skill : Skill)
    (context : Context) : Run σ (SkillResult × Context) := do
  let outcome ← skill.dispatch backends runSkill (context.withOutputs [])
  return conclude context.state.tokensUsed outcome

/-- Why a skill that is registered under the id cannot run, when `levels` are left for nesting. -/
def refusal? (levels : Nat) (id : String) (skill : Skill) : Option Failure :=
  if !skill.enabled then some (.notEnabled id)
  else if levels = 0 then some (.recursionLimit (maxDepth + 1))
  else if skill.violations.isEmpty then none
  else some (.invalid skill.validate)

end Skill

/-- Why an id cannot run. -/
def refusal? (skills : Dict Skill) (levels : Nat) (id : String) : Option Failure :=
  match skills.find? id with
  | none => some (.notFound id)
  | some skill => skill.refusal? levels id

variable {σ : Type}

/-- Run a skill by its id, with as many levels of nesting left as the number says. -/
def executeWithin (backends : Backends σ) (skills : Dict Skill) :
    (levels : Nat) → Hybrid.Runner σ
  | levels, id, context =>
    match skills.find? id with
    | none => return (.failed (Failure.notFound id).message, context)
    | some skill =>
      match skill.refusal? levels id with
      | some failure => return (.failed failure.message, context)
      | none =>
        match levels with
        | 0 => return (.failed (Failure.recursionLimit (maxDepth + 1)).message, context)
        | levels + 1 => skill.run backends (executeWithin backends skills levels) context

/-- Run a skill by its id. -/
def execute (backends : Backends σ) (skills : Dict Skill) : Hybrid.Runner σ :=
  executeWithin backends skills (maxDepth + 1)

end SkillEngine
