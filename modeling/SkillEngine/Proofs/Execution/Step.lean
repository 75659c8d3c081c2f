import SkillEngine.Proofs.Tool.Registry
import SkillEngine.Proofs.Workflow.Basic

/-!
# What a step can do

A task asks at most once: it fails or ends without asking anyone, or a
generator answers, or a tool does.  A step does its task once or more often,
and behind every attempt but the last one stands a line of the log.

Invariants of a step are proved by the cases of these two predicates, so that
the tasks and the retries are opened only here.
-/

namespace SkillEngine

variable {σ : Type}

/-- What doing a task once can come to. -/
inductive StepTask.Outcome : Ran σ (Except Failure StepOutput) → Prop where
  | failed (failure : Failure) (world : σ) :
      Outcome ⟨.error failure, [], world⟩
  | computed (value : Json) (world : σ) :
      Outcome ⟨.ok (.free value), [], world⟩
  | generated (generator : String) (request : GenerationRequest)
      (answer : Except Failure Generation) (world : σ) :
      Outcome ⟨answer.map fun generation =>
          ⟨.string generation.text, generation.tokens⟩,
        [.generated generator request answer], world⟩
  | invoked (tool : String) (parameters : Json.Object)
      (answer passed : Except Failure Json) (log : List LogLine) (world : σ) :
      Outcome ⟨passed.map .free,
        .invoked tool parameters answer :: log.map .logged, world⟩

/-- What running a step can come to. -/
inductive Step.Outcome : Ran σ (Except Failure StepOutput) → Prop where
  | last {ran : Ran σ (Except Failure StepOutput)}
      (hran : StepTask.Outcome ran) : Outcome ran
  | again {first later : Ran σ (Except Failure StepOutput)}
      (hfirst : StepTask.Outcome first) (failure : Failure)
      (hvalue : first.value = .error failure) (line : LogLine)
      (hlater : Outcome later) :
      Outcome ⟨later.value, first.events ++ .logged line :: later.events,
        later.world⟩

theorem Backends.outcome_generate (backends : Backends σ) (context : Context)
    (prompt : String) (systemPrompt : Option String)
    (model : Option ModelChoice) (world : σ) :
    StepTask.Outcome
      (backends.generate context prompt systemPrompt model world) := by
  rw [generate]
  cases backends.router.resolve
      ((model.bind (·.provider)).getD context.aiConfig.provider) with
  | error failure => exact .failed failure world
  | ok generator => exact .generated generator.name _ _ _

theorem StepTask.outcome_execute (backends : Backends σ) (task : StepTask)
    (context : Context) (results : Json.Object) (world : σ) :
    StepTask.Outcome (task.execute backends context results world) := by
  cases task with
  | prompt request => exact backends.outcome_generate _ _ _ _ _
  | tool call =>
      cases hresolved : call.resolved context.input results with
      | error failure =>
          simp only [execute, hresolved]
          exact .failed failure world
      | ok parameters =>
          simp only [execute, hresolved, Backends.callTool, Run.bind_apply,
            Run.pure_apply, List.append_nil]
          rcases backends.tools.invoke_cases call.tool parameters
            context.toolContext world with
            ⟨refusal, hran⟩ | ⟨answer, passed, log, after, hran⟩
          · rw [hran]
            exact .failed refusal.failure world
          · rw [hran]
            exact .invoked call.tool parameters answer passed log after
  | condition _ => exact .failed _ world
  | loop _ => exact .failed _ world
  | transform change => exact .computed _ world

theorem Step.outcome_attempt (backends : Backends σ) (step : Step)
    (context : Context) (results : Json.Object) (retries left : Nat)
    (world : σ) :
    Step.Outcome
      (step.attempt backends context results retries left world) := by
  induction left generalizing world with
  | zero => exact .last (step.task.outcome_execute _ _ _ _)
  | succ left ih =>
      have hfirst := step.task.outcome_execute backends context results world
      cases hvalue : (step.task.execute backends context results world).value with
      | ok output =>
          rw [attempt_of_ok retries (left + 1) hvalue]
          exact .last hfirst
      | error failure =>
          by_cases hagain : failure.isRetryable = true
          · rw [attempt_of_retry retries left hvalue hagain]
            exact .again hfirst failure hvalue _ (ih _)
          · have hfinal : failure.isRetryable = false := by simpa using hagain
            rw [attempt_of_final retries (left + 1) hvalue (.inr hfinal)]
            exact .last hfirst

theorem Step.outcome_run (backends : Backends σ) (workflow : Workflow)
    (step : Step) (context : Context) (results : Json.Object) (world : σ) :
    Step.Outcome (step.run backends workflow context results world) := by
  cases hunmet : step.unmet? results with
  | some dependency =>
      simp only [run, hunmet]
      exact .last (.failed _ world)
  | none =>
      simp only [run, hunmet]
      exact step.outcome_attempt _ _ _ _ _ _

end SkillEngine
