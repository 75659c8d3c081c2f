import SkillEngine.Execution.Step

/-!
# Workflows

The steps of a workflow run in the order of their declaration.  A step runs only when every step
that it depends on has a result.  When a step fails the workflow stops, or goes on without its
result, or tries the step again, by its policy.
-/

namespace SkillEngine

/-- Whether a second attempt could end differently. -/
def Failure.isRetryable : Failure → Bool
  | .unsupportedStep _ => false
  | .dependencyNotMet _ => false
  | .serviceUnavailable _ => false
  | .toolNotFound _ => false
  | .pluginNotEnabled _ => false
  | _ => true

/-- How often a failed step is tried again when the workflow does not say. -/
def defaultRetries : Nat := 2

/-- How often a failed step of the workflow is tried again. -/
def Workflow.retries (workflow : Workflow) : Nat :=
  match workflow.onError with
  | .retry => (workflow.maxRetries.map UInt32.toNat).getD defaultRetries
  | .stop | .carryOn => 0

namespace Step

variable {σ : Type}

/-- The first step that the step depends on and that has no result. -/
def unmet? (step : Step) (results : Json.Object) : Option String :=
  step.dependsOn.find? fun dependency => !results.has dependency

/-- The log line before another attempt. -/
def retryText (step : Step) (failure : Failure) (attempt retries : Nat) : String :=
  "step " ++ step.id ++ " failed (" ++ failure.message ++ "), retry " ++ toString attempt ++ "/" ++
    toString retries

/-- Try a step until it succeeds, or fails for good, or no retries are left. -/
def attempt (backends : Backends σ) (step : Step) (context : Context) (results : Json.Object)
    (retries : Nat) : (left : Nat) → Run σ (Except Failure StepOutput)
  | 0 => step.task.execute backends context results
  | left + 1 => do
    match ← step.task.execute backends context results with
    | .ok output => return .ok output
    | .error failure =>
      if failure.isRetryable then do
        Run.log .warn (step.retryText failure (retries - left) retries)
        attempt backends step context results retries left
      else return .error failure

/-- Run a step of a workflow. -/
def run (backends : Backends σ) (workflow : Workflow) (step : Step) (context : Context)
    (results : Json.Object) : Run σ (Except Failure StepOutput) :=
  match step.unmet? results with
  | some dependency => return .error (.dependencyNotMet dependency)
  | none => step.attempt backends context results workflow.retries workflow.retries

/-- The log line when a workflow goes on without a step. -/
def skipText (step : Step) (failure : Failure) : String :=
  "step " ++ step.id ++ " failed, continuing: " ++ failure.message

end Step

/-- How far a workflow has come: the state of its context and the results of its steps. -/
structure Progress where
  state : ExecutionState
  results : Json.Object

namespace Progress

/-- A step begins. -/
def begin (progress : Progress) (step : Step) : Progress :=
  { progress with state := { progress.state with currentStep := some step.id } }

/-- A step ended with an output. -/
def complete (progress : Progress) (step : Step) (output : StepOutput) : Progress where
  state := { progress.state with tokensUsed := progress.state.tokensUsed + output.tokens }
  results := progress.results.insert step.id output.value

/-- All steps have ended. -/
def finish (progress : Progress) : Progress :=
  { progress with state := { progress.state with currentStep := none } }

end Progress

namespace Workflow

variable {σ : Type}

/-- Run steps one after another from where the workflow stands. -/
def runSteps (backends : Backends σ) (workflow : Workflow) (context : Context) :
    List Step → Progress → Run σ (Except Failure Unit × Progress)
  | [], progress => return (.ok (), progress)
  | step :: steps, progress => do
    let progress := progress.begin step
    match ← step.run backends workflow context progress.results with
    | .ok output => do
      let progress := progress.complete step output
      Run.progress progress.results.length workflow.steps.length step.name
      runSteps backends workflow context steps progress
    | .error failure =>
      if workflow.onError = .carryOn then do
        Run.log .warn (step.skipText failure)
        runSteps backends workflow context steps progress
      else return (.error failure, progress)

/-- The log line for a mode that is not followed. -/
def modeText (mode : RunMode) : String :=
  "workflow mode " ++ mode.title ++ " is not supported, running steps sequentially"

/-- The output of a workflow: the result of its last step, or null when that has none. -/
def output (workflow : Workflow) (results : Json.Object) : Json :=
  (workflow.steps.getLast?.bind fun last => results.find? last.id).getD .null

/-- Run a workflow from the results that are there. -/
def run (backends : Backends σ) (workflow : Workflow) (context : Context)
    (results : Json.Object) : Run σ (Except Failure Json × Progress) := do
  if workflow.mode ≠ .sequential then Run.log .warn (modeText workflow.mode)
  match ← workflow.runSteps backends context workflow.steps ⟨context.state, results⟩ with
  | (.ok (), progress) => return (.ok (workflow.output progress.results), progress.finish)
  | (.error failure, progress) => return (.error failure, progress)

end Workflow

end SkillEngine
