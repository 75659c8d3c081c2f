import Mathlib.Logic.Relation
import SkillEngine.Proofs.Workflow.Basic

/-!
# Stages of a workflow's run

A run of a workflow as a sequence of single moves.  The runner stands before
the steps that are left, before one attempt at a step, or at the end; a move
takes it from one stage to the next.  `Reaches` says that moves lead from one
stage to another, so that a statement about every moment of a run is one
about every stage that is reached.

The runner itself is a recursion over the steps and not a sequence of moves.
The two agree: `reaches_ended` shows that the moves lead to the outcome, the
progress and the world that the recursion returns, and `reported_of_runSteps`
that every call of a generator or tool in it is made by an attempt on the way.
-/

namespace SkillEngine

/-- The event is a call of a generator or a tool. -/
def Event.IsCall : Event → Prop
  | .generated .. | .invoked .. => True
  | .logged _ | .progressed .. => False

namespace Workflow

variable {σ : Type}

/-- Where the runner of a workflow stands. -/
inductive Stage (σ : Type) where
  /-- Before the steps that are left. -/
  | choosing (rest : List Step) (progress : Progress) (world : σ)
  /-- Before an attempt at a step, with retries left behind it. -/
  | trying (step : Step) (left : Nat) (rest : List Step)
      (progress : Progress) (world : σ)
  /-- At the end. -/
  | ended (outcome : Except Failure Unit) (progress : Progress) (world : σ)

/-- The progress at a stage. -/
def Stage.progress : Stage σ → Progress
  | .choosing _ progress _ | .trying _ _ _ progress _ | .ended _ progress _ =>
    progress

/-- Where a step that failed for good leads: on to the steps behind it, or
to the end. -/
def Stage.afterFailure (workflow : Workflow) (failure : Failure)
    (rest : List Step) (progress : Progress) (world : σ) : Stage σ :=
  if workflow.onError = .carryOn then .choosing rest progress world
  else .ended (.error failure) progress world

/-- The attempt at the step fails, and the step is not tried again. -/
def FailsForGood (backends : Backends σ) (context : Context) (step : Step)
    (left : Nat) (progress : Progress) (world : σ) (failure : Failure) : Prop :=
  (step.task.execute backends context progress.results world).value =
      .error failure ∧
    (left = 0 ∨ failure.isRetryable = false)

/-- One move of the runner. -/
inductive Move (backends : Backends σ) (workflow : Workflow)
    (context : Context) : Stage σ → Stage σ → Prop where
  | finish {progress : Progress} {world : σ} :
      Move backends workflow context
        (.choosing [] progress world) (.ended (.ok ()) progress world)
  | refuse {step : Step} {rest : List Step} {progress : Progress} {world : σ}
      {dependency : String}
      (hunmet : step.unmet? progress.results = some dependency) :
      Move backends workflow context (.choosing (step :: rest) progress world)
        (.afterFailure workflow (.dependencyNotMet dependency) rest
          (progress.begin step) world)
  | enter {step : Step} {rest : List Step} {progress : Progress} {world : σ}
      (hmet : step.unmet? progress.results = none) :
      Move backends workflow context (.choosing (step :: rest) progress world)
        (.trying step workflow.retries rest (progress.begin step) world)
  | complete {step : Step} {left : Nat} {rest : List Step}
      {progress : Progress} {world : σ} {output : StepOutput}
      (hvalue : (step.task.execute backends context progress.results
        world).value = .ok output) :
      Move backends workflow context (.trying step left rest progress world)
        (.choosing rest (progress.complete step output)
          (step.task.execute backends context progress.results world).world)
  | retry {step : Step} {left : Nat} {rest : List Step}
      {progress : Progress} {world : σ} {failure : Failure}
      (hvalue : (step.task.execute backends context progress.results
        world).value = .error failure)
      (hagain : failure.isRetryable = true) :
      Move backends workflow context
        (.trying step (left + 1) rest progress world)
        (.trying step left rest progress
          (step.task.execute backends context progress.results world).world)
  | fail {step : Step} {left : Nat} {rest : List Step}
      {progress : Progress} {world : σ} {failure : Failure}
      (hfails : FailsForGood backends context step left progress world failure) :
      Move backends workflow context (.trying step left rest progress world)
        (.afterFailure workflow failure rest progress
          (step.task.execute backends context progress.results world).world)

/-- Moves lead from one stage to another. -/
def Reaches (backends : Backends σ) (workflow : Workflow) (context : Context) :
    Stage σ → Stage σ → Prop :=
  Relation.ReflTransGen (Move backends workflow context)

/-- The stage at which the run of a workflow begins. -/
def start (workflow : Workflow) (context : Context) (world : σ) : Stage σ :=
  .choosing workflow.steps ⟨context.state, []⟩ world

variable {backends : Backends σ} {workflow : Workflow} {context : Context}

theorem Move.reaches {first second : Stage σ}
    (h : Move backends workflow context first second) :
    Reaches backends workflow context first second :=
  .single h

theorem Reaches.trans {first second third : Stage σ}
    (h : Reaches backends workflow context first second)
    (h' : Reaches backends workflow context second third) :
    Reaches backends workflow context first third :=
  Relation.ReflTransGen.trans h h'

/-! ## One step of the recursion -/

/-- Where the answer of a step leads. -/
def Stage.afterStep (workflow : Workflow) (step : Step) (rest : List Step)
    (progress : Progress) : Except Failure StepOutput → σ → Stage σ
  | .ok output, world => .choosing rest (progress.complete step output) world
  | .error failure, world =>
    .afterFailure workflow failure rest progress world

/-- A step that is not tried again leads to what follows its answer. -/
theorem reaches_of_final {step : Step} {left : Nat} (rest : List Step)
    {progress : Progress} {world : σ}
    (hfinal : ∀ failure, (step.task.execute backends context progress.results
      world).value = .error failure →
        left = 0 ∨ failure.isRetryable = false) :
    let ran := step.task.execute backends context progress.results world
    Reaches backends workflow context (.trying step left rest progress world)
      (.afterStep workflow step rest progress ran.value ran.world) := by
  cases hvalue : (step.task.execute backends context progress.results
    world).value with
  | ok output =>
      simp only [hvalue, Stage.afterStep]
      exact (Move.complete hvalue).reaches
  | error failure =>
      simp only [hvalue, Stage.afterStep]
      exact (Move.fail ⟨hvalue, hfinal failure hvalue⟩).reaches

/-- The attempts at a step, one after another. -/
theorem reaches_attempt (step : Step) (rest : List Step) (progress : Progress)
    (retries left : Nat) (world : σ) :
    let ran := step.attempt backends context progress.results retries left world
    Reaches backends workflow context (.trying step left rest progress world)
      (.afterStep workflow step rest progress ran.value ran.world) := by
  induction left generalizing world with
  | zero => exact reaches_of_final rest fun _ _ => .inl rfl
  | succ left ih =>
      cases hvalue : (step.task.execute backends context progress.results
        world).value with
      | ok output =>
          rw [Step.attempt_of_ok retries (left + 1) hvalue]
          apply reaches_of_final rest
          intro failure hfailure
          rw [hvalue] at hfailure
          contradiction
      | error failure =>
          cases hagain : failure.isRetryable with
          | true =>
              rw [Step.attempt_of_retry retries left hvalue hagain]
              exact (Move.retry hvalue hagain).reaches.trans (ih _)
          | false =>
              rw [Step.attempt_of_final retries (left + 1) hvalue
                (.inr hagain)]
              apply reaches_of_final rest
              intro other hother
              obtain rfl : failure = other := by simpa [hvalue] using hother
              exact .inr hagain

/-- A step, from the look at its dependencies to its answer. -/
theorem reaches_step (backends : Backends σ) (workflow : Workflow)
    (context : Context) (step : Step) (rest : List Step) (progress : Progress)
    (world : σ) :
    let ran := step.run backends workflow context progress.results world
    Reaches backends workflow context (.choosing (step :: rest) progress world)
      (.afterStep workflow step rest (progress.begin step)
        ran.value ran.world) := by
  cases hunmet : step.unmet? progress.results with
  | some dependency =>
      simp only [Step.run, hunmet]
      exact (Move.refuse hunmet).reaches
  | none =>
      simp only [Step.run, hunmet]
      exact (Move.enter hunmet).reaches.trans
        (reaches_attempt step rest (progress.begin step) workflow.retries
          workflow.retries world)

/-! ## The recursion and the moves -/

/-- Moves lead to what the recursion over the steps returns. -/
theorem reaches_ended (steps : List Step) (progress : Progress) (world : σ) :
    let ran := workflow.runSteps backends context steps progress world
    Reaches backends workflow context (.choosing steps progress world)
      (.ended ran.value.1 ran.value.2 ran.world) := by
  induction steps generalizing progress world with
  | nil => exact Move.finish.reaches
  | cons step steps ih =>
      have hstep := reaches_step backends workflow context step steps progress
        world
      refine hstep.trans ?_
      cases hvalue : (step.run backends workflow context progress.results
        world).value with
      | ok output =>
          rw [runSteps_of_ok hvalue]
          exact ih _ _
      | error failure =>
          by_cases honError : workflow.onError = .carryOn
          · rw [runSteps_of_skip hvalue honError, Stage.afterStep,
              Stage.afterFailure, if_pos honError]
            exact ih _ _
          · rw [runSteps_of_abort hvalue honError, Stage.afterStep,
              Stage.afterFailure, if_neg honError]
            exact .refl

/-! ## Who makes the calls -/

/-- An attempt that is reached from the stage reports the event. -/
def ReportedFrom (backends : Backends σ) (workflow : Workflow)
    (context : Context) (stage : Stage σ) (event : Event) : Prop :=
  ∃ step left rest progress world,
    Reaches backends workflow context stage
      (.trying step left rest progress world) ∧
    event ∈
      (step.task.execute backends context progress.results world).events

theorem ReportedFrom.of_reaches {first second : Stage σ} {event : Event}
    (hreach : Reaches backends workflow context first second)
    (h : ReportedFrom backends workflow context second event) :
    ReportedFrom backends workflow context first event := by
  obtain ⟨step, left, rest, progress, world, hlater, hmem⟩ := h
  exact ⟨step, left, rest, progress, world, hreach.trans hlater, hmem⟩

/-- Every call among the attempts at a step is made by one of them. -/
theorem reported_of_attempt {step : Step} (rest : List Step)
    {progress : Progress} {retries left : Nat} {world : σ} {event : Event}
    (hmem : event ∈ (step.attempt backends context progress.results retries left
      world).events)
    (hcall : event.IsCall) :
    ReportedFrom backends workflow context
      (.trying step left rest progress world) event := by
  induction left generalizing world with
  | zero => exact ⟨step, 0, rest, progress, world, .refl, hmem⟩
  | succ left ih =>
      cases hvalue : (step.task.execute backends context progress.results
        world).value with
      | ok output =>
          rw [Step.attempt_of_ok retries (left + 1) hvalue] at hmem
          exact ⟨step, left + 1, rest, progress, world, .refl, hmem⟩
      | error failure =>
          cases hagain : failure.isRetryable with
          | false =>
              rw [Step.attempt_of_final retries (left + 1) hvalue
                (.inr hagain)] at hmem
              exact ⟨step, left + 1, rest, progress, world, .refl, hmem⟩
          | true =>
              rw [Step.attempt_of_retry retries left hvalue hagain] at hmem
              rcases List.mem_append.mp hmem with hmem | hmem
              · exact ⟨step, left + 1, rest, progress, world, .refl, hmem⟩
              · rcases List.mem_cons.mp hmem with rfl | hmem
                · exact hcall.elim
                · exact (ih hmem).of_reaches (Move.retry hvalue hagain).reaches

theorem reported_of_step {step : Step} (rest : List Step) {progress : Progress}
    {world : σ} {event : Event}
    (hmem : event ∈ (step.run backends workflow context progress.results
      world).events)
    (hcall : event.IsCall) :
    ReportedFrom backends workflow context
      (.choosing (step :: rest) progress world) event := by
  cases hunmet : step.unmet? progress.results with
  | some dependency => simp [Step.run, hunmet] at hmem
  | none =>
      simp only [Step.run, hunmet] at hmem
      have hattempt : ReportedFrom backends workflow context
          (.trying step workflow.retries rest (progress.begin step) world)
          event :=
        reported_of_attempt rest hmem hcall
      exact hattempt.of_reaches (Move.enter hunmet).reaches

/-- Every call of a generator or tool in a run is made by an attempt at a
step that the moves reach. -/
theorem reported_of_runSteps {steps : List Step} {progress : Progress}
    {world : σ} {event : Event}
    (hmem : event ∈ (workflow.runSteps backends context steps progress
      world).events)
    (hcall : event.IsCall) :
    ReportedFrom backends workflow context
      (.choosing steps progress world) event := by
  induction steps generalizing progress world with
  | nil => simp [runSteps_nil] at hmem
  | cons step steps ih =>
      have hstep := reaches_step backends workflow context step steps progress
        world
      cases hvalue : (step.run backends workflow context progress.results
        world).value with
      | ok output =>
          simp only [hvalue, Stage.afterStep] at hstep
          rw [runSteps_of_ok hvalue] at hmem
          rcases List.mem_append.mp hmem with hmem | hmem
          · exact reported_of_step steps hmem hcall
          · rcases List.mem_cons.mp hmem with rfl | hmem
            · exact hcall.elim
            · exact (ih hmem).of_reaches hstep
      | error failure =>
          by_cases honError : workflow.onError = .carryOn
          · simp only [hvalue, Stage.afterStep, Stage.afterFailure,
              if_pos honError] at hstep
            rw [runSteps_of_skip hvalue honError] at hmem
            rcases List.mem_append.mp hmem with hmem | hmem
            · exact reported_of_step steps hmem hcall
            · rcases List.mem_cons.mp hmem with rfl | hmem
              · exact hcall.elim
              · exact (ih hmem).of_reaches hstep
          · rw [runSteps_of_abort hvalue honError] at hmem
            exact reported_of_step steps hmem hcall

end Workflow

end SkillEngine
