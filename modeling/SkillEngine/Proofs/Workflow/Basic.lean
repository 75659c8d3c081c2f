import SkillEngine.Execution.Workflow
import SkillEngine.Proofs.Dict
import SkillEngine.Proofs.Execution.Run

/-!
# The runner of a workflow, one equation at a time

Each equation opens one turn of a recursion of the runner: an attempt at a
step and what follows it, or a step and the steps behind it.
-/

namespace SkillEngine

@[simp] theorem Progress.begin_results (progress : Progress) (step : Step) :
    (progress.begin step).results = progress.results := rfl

@[simp] theorem Progress.finish_results (progress : Progress) :
    progress.finish.results = progress.results := rfl

@[simp] theorem Progress.complete_results
    (progress : Progress) (step : Step) (output : StepOutput) :
    (progress.complete step output).results =
      progress.results.insert step.id output.value := rfl

theorem ToolTask.eq_parametersFault {task : ToolTask}
    {input results : Json.Object} {failure : Failure}
    (h : task.resolved input results = .error failure) :
    failure = task.parametersFault := by
  unfold resolved at h
  split at h
  · simp at h
  · simp at h
  · split at h
    · simp at h
    · exact (Except.error.inj h).symm

namespace Step

variable {σ : Type} {backends : Backends σ} {context : Context}

theorem unmet?_eq_none {step : Step} {results : Json.Object} :
    step.unmet? results = none ↔
      ∀ dependency ∈ step.dependsOn, results.has dependency = true := by
  simp [unmet?]

theorem of_unmet? {step : Step} {results : Json.Object} {dependency : String}
    (h : step.unmet? results = some dependency) :
    dependency ∈ step.dependsOn ∧ results.has dependency = false :=
  ⟨List.mem_of_find?_eq_some h, by simpa using List.find?_some h⟩

theorem attempt_of_ok {step : Step} {results : Json.Object} {world : σ}
    {output : StepOutput} (retries left : Nat)
    (h : (step.task.execute backends context results world).value =
      .ok output) :
    step.attempt backends context results retries left world =
      step.task.execute backends context results world := by
  cases left with
  | zero => rfl
  | succ left =>
      rw [attempt, Run.bind_apply]
      simp only [h, Run.pure_apply, List.append_nil]
      rw [← h]

theorem attempt_of_final {step : Step} {results : Json.Object} {world : σ}
    {failure : Failure} (retries left : Nat)
    (h : (step.task.execute backends context results world).value =
      .error failure)
    (hfinal : left = 0 ∨ failure.isRetryable = false) :
    step.attempt backends context results retries left world =
      step.task.execute backends context results world := by
  cases left with
  | zero => rfl
  | succ left =>
      have hno : failure.isRetryable = false := by simpa using hfinal
      rw [attempt, Run.bind_apply]
      simp only [h, hno, Bool.false_eq_true, if_false, Run.pure_apply,
        List.append_nil]
      rw [← h]

theorem attempt_of_retry {step : Step} {results : Json.Object} {world : σ}
    {failure : Failure} (retries left : Nat)
    (h : (step.task.execute backends context results world).value =
      .error failure)
    (hagain : failure.isRetryable = true) :
    let ran := step.task.execute backends context results world
    let later := step.attempt backends context results retries left ran.world
    step.attempt backends context results retries (left + 1) world =
      ⟨later.value,
        ran.events ++
          .logged ⟨.warn, step.retryText failure (retries - left) retries⟩ ::
            later.events,
        later.world⟩ := by
  rw [attempt, Run.bind_apply]
  simp [h, hagain]

end Step

namespace Workflow

variable {σ : Type} {backends : Backends σ} {workflow : Workflow}
  {context : Context}

theorem runSteps_nil (progress : Progress) (world : σ) :
    workflow.runSteps backends context [] progress world =
      ⟨(.ok (), progress), [], world⟩ := rfl

theorem runSteps_of_ok {step : Step} {steps : List Step} {progress : Progress}
    {world : σ} {output : StepOutput}
    (h : (step.run backends workflow context progress.results world).value =
      .ok output) :
    let ran := step.run backends workflow context progress.results world
    let after := (progress.begin step).complete step output
    let later := workflow.runSteps backends context steps after ran.world
    workflow.runSteps backends context (step :: steps) progress world =
      ⟨later.value,
        ran.events ++
          .progressed after.results.length workflow.steps.length step.name ::
            later.events,
        later.world⟩ := by
  rw [runSteps, Run.bind_apply]
  simp [h]

theorem runSteps_of_skip {step : Step} {steps : List Step}
    {progress : Progress} {world : σ} {failure : Failure}
    (h : (step.run backends workflow context progress.results world).value =
      .error failure)
    (honError : workflow.onError = .carryOn) :
    let ran := step.run backends workflow context progress.results world
    let later := workflow.runSteps backends context steps
      (progress.begin step) ran.world
    workflow.runSteps backends context (step :: steps) progress world =
      ⟨later.value,
        ran.events ++ .logged ⟨.warn, step.skipText failure⟩ :: later.events,
        later.world⟩ := by
  rw [runSteps, Run.bind_apply]
  simp [h, honError]

theorem runSteps_of_abort {step : Step} {steps : List Step}
    {progress : Progress} {world : σ} {failure : Failure}
    (h : (step.run backends workflow context progress.results world).value =
      .error failure)
    (honError : workflow.onError ≠ .carryOn) :
    let ran := step.run backends workflow context progress.results world
    workflow.runSteps backends context (step :: steps) progress world =
      ⟨(.error failure, progress.begin step), ran.events, ran.world⟩ := by
  rw [runSteps, Run.bind_apply]
  simp [h, honError]

end Workflow

end SkillEngine
