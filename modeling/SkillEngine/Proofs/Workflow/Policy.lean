import SkillEngine.Proofs.Workflow.Answers
import SkillEngine.Proofs.Workflow.Execution

/-!
# The three policies for failures

A workflow that stops at the first failure, one that carries on and one that
tries again do the same up to the first step that fails.  `Meets` says that
they all come to this step with the same events behind them, in the same
progress and the same world; it is found by induction on the steps.  What each
policy makes of the failure is then read off the equations of the runner.

Generators and tools may answer as they like, also by what they were asked
before: nothing but the first answer of a step is compared.
-/

namespace SkillEngine

variable {σ : Type} {backends : Backends σ} {context : Context}

namespace Workflow

variable {workflow : Workflow}

/-- The same workflow with another policy for failures. -/
def under (workflow : Workflow) (policy : ErrorPolicy) : Workflow :=
  { workflow with onError := policy }

/-- The same workflow with no further attempts at a step. -/
def unretried (workflow : Workflow) : Workflow :=
  { workflow with maxRetries := some 0 }

/-! ## What the runner reads of a workflow -/

theorem run_step_congr {first second : Workflow}
    (hretries : first.retries = second.retries) (step : Step)
    (results : Json.Object) :
    step.run backends first context results =
      step.run backends second context results := by
  rw [Step.run, Step.run, hretries]

/-- Of a workflow the runner of its steps reads their number, the retries and
whether to carry on. -/
theorem runSteps_congr {first second : Workflow}
    (hcount : first.steps.length = second.steps.length)
    (hretries : first.retries = second.retries)
    (hcarry : first.onError = .carryOn ↔ second.onError = .carryOn)
    (steps : List Step) (progress : Progress) :
    first.runSteps backends context steps progress =
      second.runSteps backends context steps progress := by
  induction steps generalizing progress with
  | nil => rfl
  | cons step steps ih =>
      simp only [runSteps, run_step_congr hretries, hcount, hcarry, ih]

/-- What follows the answer of a step. -/
def answered (backends : Backends σ) (workflow : Workflow) (context : Context)
    (step : Step) (rest : List Step) (progress : Progress) :
    Except Failure StepOutput → Run σ (Except Failure Unit × Progress)
  | .ok output => do
    let progress := progress.complete step output
    Run.progress progress.results.length workflow.steps.length step.name
    workflow.runSteps backends context rest progress
  | .error failure =>
    if workflow.onError = .carryOn then do
      Run.log .warn (step.skipText failure)
      workflow.runSteps backends context rest progress
    else return (.error failure, progress)

theorem runSteps_cons (step : Step) (rest : List Step) (progress : Progress) :
    workflow.runSteps backends context (step :: rest) progress = (do
      let answer ← step.run backends workflow context progress.results
      workflow.answered backends context step rest (progress.begin step)
        answer) := by
  rfl

theorem run_congr {first second : Workflow} {results : Json.Object} {world : σ}
    (hmode : first.mode = second.mode) (hsteps : first.steps = second.steps)
    (h : first.runSteps backends context first.steps ⟨context.state, results⟩
        world =
      second.runSteps backends context second.steps ⟨context.state, results⟩
        world) :
    first.run backends context results world =
      second.run backends context results world := by
  have hclosing : first.closing = second.closing := by
    funext reached
    obtain ⟨_ | _, progress⟩ := reached
    · rfl
    · simp [closing, output, hsteps]
  have hevents : first.modeEvents = second.modeEvents := by
    simp [modeEvents, hmode]
  rw [run_apply, run_apply, h, hclosing, hevents]

theorem run_unretried (backends : Backends σ) (workflow : Workflow)
    (context : Context) (world : σ) :
    (workflow.under .retry).unretried.run backends context [] world =
      (workflow.under .stop).run backends context [] world := by
  refine run_congr rfl rfl ?_
  have hcarry : (workflow.under .retry).unretried.onError = .carryOn ↔
      (workflow.under .stop).onError = .carryOn := by
    simp [under, unretried]
  apply congrFun (runSteps_congr ?_ ?_ hcarry _ _)
  · rfl
  · rfl

/-! ## The first failure -/

/-- Under every policy the run of the steps comes to the step, with the same
events behind it, the same progress and the same world. -/
structure Meets (backends : Backends σ) (workflow : Workflow)
    (context : Context) (steps : List Step) (progress : Progress) (world : σ)
    (failing : Step) (rest : List Step) (before : List Event)
    (reached : Progress) (moment : σ) : Prop where
  split : ∃ done, steps = done ++ failing :: rest
  reaches : ∀ policy, Reaches backends (workflow.under policy) context
    (.choosing steps progress world)
    (.choosing (failing :: rest) reached moment)
  continues : ∀ policy,
    let later := (workflow.under policy).runSteps backends context
      (failing :: rest) reached moment
    (workflow.under policy).runSteps backends context steps progress world =
      ⟨later.value, before ++ later.events, later.world⟩

theorem meets_here (workflow : Workflow) (failing : Step) (rest : List Step)
    (progress : Progress) (world : σ) :
    Meets backends workflow context (failing :: rest) progress world failing
      rest [] progress world where
  split := ⟨[], rfl⟩
  reaches := fun _ => .refl
  continues := fun _ => rfl

/-- A step that answers when it is tried once answers the same under every
policy. -/
theorem run_step_under {step : Step} {results : Json.Object} {world : σ}
    {output : StepOutput}
    (h : (step.run backends (workflow.under .stop) context results
      world).value = .ok output) (policy : ErrorPolicy) :
    step.run backends (workflow.under policy) context results world =
      step.run backends (workflow.under .stop) context results world := by
  cases hunmet : step.unmet? results with
  | some dependency => simp [Step.run, hunmet]
  | none =>
      simp only [Step.run, hunmet] at h ⊢
      exact Step.attempt_of_ok _ _ h

theorem Meets.later {step failing : Step} {steps rest : List Step}
    {progress reached : Progress} {world moment : σ} {before : List Event}
    {output : StepOutput}
    (hvalue : (step.run backends (workflow.under .stop) context
      progress.results world).value = .ok output)
    (h : Meets backends workflow context steps
      ((progress.begin step).complete step output)
      (step.run backends (workflow.under .stop) context progress.results
        world).world failing rest before reached moment) :
    let ran := step.run backends (workflow.under .stop) context
      progress.results world
    let after := (progress.begin step).complete step output
    Meets backends workflow context (step :: steps) progress world failing rest
      (ran.events ++ .progressed after.results.length workflow.steps.length
        step.name :: before) reached moment where
  split := by
    obtain ⟨done, hsplit⟩ := h.split
    exact ⟨step :: done, by rw [hsplit, List.cons_append]⟩
  reaches := by
    intro policy
    have hstep := reaches_step backends (workflow.under policy) context step
      steps progress world
    simp only [run_step_under hvalue policy, hvalue] at hstep
    exact hstep.trans (h.reaches policy)
  continues := by
    intro policy later
    have hsame := run_step_under hvalue policy
    have hok := hvalue
    rw [← hsame] at hok
    rw [runSteps_of_ok hok, hsame, h.continues policy]
    simp only [List.append_assoc, List.cons_append]
    rfl

/-- When stopping does not come to an end, all policies meet a step that fails;
otherwise they all do the same. -/
theorem exists_meets (backends : Backends σ) (workflow : Workflow)
    (context : Context) (steps : List Step) (progress : Progress) (world : σ) :
    let stopped := (workflow.under .stop).runSteps backends context steps
      progress world
    (stopped.value.1 = .ok () ∧ ∀ policy,
      (workflow.under policy).runSteps backends context steps progress world =
        stopped) ∨
    ∃ failing rest before reached moment failure,
      Meets backends workflow context steps progress world failing rest before
        reached moment ∧
      (failing.run backends (workflow.under .stop) context reached.results
        moment).value = .error failure := by
  induction steps generalizing progress world with
  | nil => exact .inl ⟨rfl, fun _ => rfl⟩
  | cons step steps ih =>
      intro stopped
      cases hvalue : (step.run backends (workflow.under .stop) context
          progress.results world).value with
      | error failure =>
          exact .inr ⟨step, steps, [], progress, world, failure,
            meets_here workflow step steps progress world, hvalue⟩
      | ok output =>
          rcases ih ((progress.begin step).complete step output)
              (step.run backends (workflow.under .stop) context
                progress.results world).world with
            ⟨hok, hall⟩ | ⟨failing, rest, before, reached, moment, failure,
              hmeets, hfails⟩
          · left
            have hstopped : stopped = _ := runSteps_of_ok hvalue
            refine ⟨by rw [hstopped]; exact hok, fun policy => ?_⟩
            have hsame := run_step_under hvalue policy
            have hvalue' := hvalue
            rw [← hsame] at hvalue'
            rw [hstopped, runSteps_of_ok hvalue', hsame, hall policy]
            rfl
          · exact .inr ⟨failing, rest, _, reached, moment, failure,
              hmeets.later hvalue, hfails⟩

/-! ## What the policies make of it -/

section Failing

variable {failing : Step} {rest : List Step} {reached : Progress} {moment : σ}
  {failure : Failure}
  (hfails : (failing.run backends (workflow.under .stop) context
    reached.results moment).value = .error failure)

include hfails

theorem runSteps_stop :
    let first := failing.run backends (workflow.under .stop) context
      reached.results moment
    (workflow.under .stop).runSteps backends context (failing :: rest) reached
        moment =
      ⟨(.error failure, reached.begin failing), first.events, first.world⟩ :=
  runSteps_of_abort hfails (by simp [under])

/-- Who carries on has tried the step once, too. -/
theorem runSteps_carryOn :
    let first := failing.run backends (workflow.under .stop) context
      reached.results moment
    let later := (workflow.under .carryOn).runSteps backends context rest
      (reached.begin failing) first.world
    (workflow.under .carryOn).runSteps backends context (failing :: rest)
        reached moment =
      ⟨later.value,
        first.events ++ .logged ⟨.warn, failing.skipText failure⟩ ::
          later.events,
        later.world⟩ := by
  have hsame : failing.run backends (workflow.under .carryOn) context
      reached.results = failing.run backends (workflow.under .stop) context
        reached.results := run_step_congr rfl failing reached.results
  have hskips := hfails
  rw [← hsame] at hskips
  rw [runSteps_of_skip hskips rfl, hsame]

/-- Who retries has tried the step once, and leaves it at that or goes on. -/
theorem run_step_retry :
    let first := failing.run backends (workflow.under .stop) context
      reached.results moment
    let run := failing.run backends (workflow.under .retry) context
      reached.results moment
    run = first ∨
    ∃ left, (workflow.under .retry).retries = left + 1 ∧
      let again := failing.attempt backends context reached.results (left + 1)
        left first.world
      run = ⟨again.value,
        first.events ++
          .logged ⟨.warn, failing.retryText failure 1 (left + 1)⟩ ::
            again.events,
        again.world⟩ := by
  intro first run
  cases hunmet : failing.unmet? reached.results with
  | some dependency =>
      left
      simp only [run, first, Step.run, hunmet]
  | none =>
      have hfirst : first = failing.task.execute backends context
          reached.results moment := by
        simp only [first, Step.run, hunmet]
        rfl
      have hrun : run = failing.attempt backends context reached.results
          (workflow.under .retry).retries (workflow.under .retry).retries
          moment := by
        simp only [run, Step.run, hunmet]
      have hvalue : (failing.task.execute backends context reached.results
          moment).value = .error failure := by
        rw [← hfirst]
        exact hfails
      cases hretries : (workflow.under .retry).retries with
      | zero =>
          left
          rw [hrun, hfirst, hretries]
          rfl
      | succ left =>
          rw [hretries] at hrun
          by_cases hagain : failure.isRetryable = true
          · right
            rw [Step.attempt_of_retry (left + 1) left hvalue hagain] at hrun
            refine ⟨left, rfl, ?_⟩
            simp [hrun, hfirst]
          · left
            have hfinal : failure.isRetryable = false := by simpa using hagain
            rw [hrun, hfirst, Step.attempt_of_final _ _ hvalue (.inr hfinal)]

theorem runSteps_retry :
    let stopped := (workflow.under .stop).runSteps backends context
      (failing :: rest) reached moment
    let retried := (workflow.under .retry).runSteps backends context
      (failing :: rest) reached moment
    retried = stopped ∨
    ∃ left, (workflow.under .retry).retries = left + 1 ∧
      let later := (do
        let answer ← failing.attempt backends context reached.results
          (left + 1) left
        (workflow.under .retry).answered backends context failing rest
          (reached.begin failing) answer) stopped.world
      retried = ⟨later.value,
        stopped.events ++
          .logged ⟨.warn, failing.retryText failure 1 (left + 1)⟩ ::
            later.events,
        later.world⟩ := by
  intro stopped retried
  have hstopped : stopped = _ := runSteps_stop hfails
  rcases run_step_retry hfails with hsame | ⟨left, hretries, hrun⟩
  · left
    have haborts := hfails
    rw [← hsame] at haborts
    have hretried : retried = _ :=
      runSteps_of_abort haborts (by simp [under])
    rw [hretried, hstopped, hsame]
  · right
    refine ⟨left, hretries, ?_⟩
    simp only [retried, hstopped]
    rw [runSteps_cons, Run.bind_apply, hrun]
    simp

end Failing

/-! ## The policies side by side -/

/-- How a workflow that carries on goes on behind a step that failed. -/
def passOver (backends : Backends σ) (workflow : Workflow) (context : Context)
    (failing : Step) (failure : Failure) (rest : List Step)
    (progress : Progress) : Run σ (Except Failure Json × Progress) := do
  Run.log .warn (failing.skipText failure)
  let reached ← (workflow.under .carryOn).runSteps backends context rest
    progress
  return workflow.closing reached

/-- How a workflow that tries again goes on behind the first attempt at a step,
when one more attempt is left than the number says. -/
def tryAgain (backends : Backends σ) (workflow : Workflow) (context : Context)
    (failing : Step) (failure : Failure) (rest : List Step) (left : Nat)
    (progress : Progress) : Run σ (Except Failure Json × Progress) := do
  Run.log .warn (failing.retryText failure 1 (left + 1))
  let answer ← failing.attempt backends context progress.results (left + 1) left
  let reached ← (workflow.under .retry).answered backends context failing rest
    progress answer
  return workflow.closing reached

/-- The whole run begins as the first run, and goes on from the progress and
the world that this one leaves. -/
def Continues (first : Ran σ (Except Failure Json × Progress))
    (next : Progress → Run σ (Except Failure Json × Progress))
    (whole : Ran σ (Except Failure Json × Progress)) : Prop :=
  let later := next first.value.2 first.world
  whole = ⟨later.value, first.events ++ later.events, later.world⟩

theorem Continues.isPrefix
    {first whole : Ran σ (Except Failure Json × Progress)}
    {next : Progress → Run σ (Except Failure Json × Progress)}
    (h : Continues first next whole) : first.events <+: whole.events := by
  rw [h]
  exact List.prefix_append _ _

/-- How the runs of a workflow under the three policies are related. -/
structure PoliciesRefine (backends : Backends σ) (workflow : Workflow)
    (context : Context) (world : σ) : Prop where
  /-- To retry no times is to stop. -/
  unretried :
    (workflow.under .retry).unretried.run backends context [] world =
      (workflow.under .stop).run backends context [] world
  /-- What is reported by stopping is reported first under every policy. -/
  reported : ∀ policy,
    ((workflow.under .stop).run backends context [] world).events <+:
      ((workflow.under policy).run backends context [] world).events
  /-- When stopping ends at a failure, carrying on passes over the step, and
  retrying leaves it at that or tries the step again: from the same progress,
  the results in it included, and from the same world. -/
  continued : ∀ failure,
    ((workflow.under .stop).run backends context [] world).value.1 =
        .error failure →
      ∃ done failing rest, workflow.steps = done ++ failing :: rest ∧
        Continues ((workflow.under .stop).run backends context [] world)
          (workflow.passOver backends context failing failure rest)
          ((workflow.under .carryOn).run backends context [] world) ∧
        ((workflow.under .retry).run backends context [] world =
            (workflow.under .stop).run backends context [] world ∨
          ∃ left, (workflow.under .retry).retries = left + 1 ∧
            Continues ((workflow.under .stop).run backends context [] world)
              (workflow.tryAgain backends context failing failure rest left)
              ((workflow.under .retry).run backends context [] world))
  /-- When no step fails by stopping, all policies do the same. -/
  unfailing :
    (∀ step failure,
      ¬AnswersFrom backends (workflow.under .stop) context
        ((workflow.under .stop).start context world) step (.error failure)) →
    ∀ policy, (workflow.under policy).run backends context [] world =
      (workflow.under .stop).run backends context [] world

section Side

variable {failing : Step} {rest : List Step} {before : List Event}
  {reached : Progress} {world moment : σ} {failure : Failure}
  (hmeets : Meets backends workflow context workflow.steps ⟨context.state, []⟩
    world failing rest before reached moment)

include hmeets

/-- Under each policy the workflow runs as it does from the step on. -/
theorem Meets.run_under (policy : ErrorPolicy) :
    let later := (workflow.under policy).runSteps backends context
      (failing :: rest) reached moment
    (workflow.under policy).run backends context [] world =
      ⟨workflow.closing later.value,
        workflow.modeEvents ++ before ++ later.events, later.world⟩ := by
  intro later
  have hsteps : (workflow.under policy).runSteps backends context
      (workflow.under policy).steps ⟨context.state, []⟩ world =
        ⟨later.value, before ++ later.events, later.world⟩ :=
    hmeets.continues policy
  rw [run_apply, hsteps, List.append_assoc]
  rfl

variable (hfails : (failing.run backends (workflow.under .stop) context
    reached.results moment).value = .error failure)

include hfails

theorem Meets.run_stop :
    let first := failing.run backends (workflow.under .stop) context
      reached.results moment
    (workflow.under .stop).run backends context [] world =
      ⟨(.error failure, reached.begin failing),
        workflow.modeEvents ++ before ++ first.events, first.world⟩ := by
  rw [hmeets.run_under, runSteps_stop hfails]
  rfl

theorem Meets.continues_carryOn :
    Continues ((workflow.under .stop).run backends context [] world)
      (workflow.passOver backends context failing failure rest)
      ((workflow.under .carryOn).run backends context [] world) := by
  rw [hmeets.run_stop hfails, hmeets.run_under, runSteps_carryOn hfails]
  simp [Continues, passOver]

theorem Meets.continues_retry :
    (workflow.under .retry).run backends context [] world =
        (workflow.under .stop).run backends context [] world ∨
      ∃ left, (workflow.under .retry).retries = left + 1 ∧
        Continues ((workflow.under .stop).run backends context [] world)
          (workflow.tryAgain backends context failing failure rest left)
          ((workflow.under .retry).run backends context [] world) := by
  rcases runSteps_retry hfails with hsame | ⟨left, hretries, hran⟩
  · left
    rw [hmeets.run_under, hmeets.run_under, hsame]
  · refine .inr ⟨left, hretries, ?_⟩
    rw [runSteps_stop hfails] at hran
    rw [hmeets.run_stop hfails, hmeets.run_under, hran]
    simp [Continues, tryAgain]

end Side

/-- Whatever the generators and tools answer, and whatever they remember, the
policies of a workflow refine one another. -/
theorem policies_refine (backends : Backends σ) (workflow : Workflow)
    (context : Context) (world : σ) :
    workflow.PoliciesRefine backends context world := by
  have hfirst := exists_meets backends workflow context workflow.steps
    ⟨context.state, []⟩ world
  have hagree : (∀ policy, (workflow.under policy).runSteps backends context
        workflow.steps ⟨context.state, []⟩ world =
          (workflow.under .stop).runSteps backends context workflow.steps
            ⟨context.state, []⟩ world) →
      ∀ policy, (workflow.under policy).run backends context [] world =
        (workflow.under .stop).run backends context [] world := by
    intro hsame policy
    exact run_congr rfl rfl (hsame policy)
  constructor
  case unretried =>
    exact run_unretried backends workflow context world
  case reported =>
    intro policy
    rcases hfirst with ⟨-, hsame⟩ | ⟨failing, rest, before, reached, moment,
      failure, hmeets, hfails⟩
    · simp only [hagree hsame policy, List.prefix_rfl]
    · cases policy with
      | stop => exact List.prefix_rfl
      | carryOn => exact (hmeets.continues_carryOn hfails).isPrefix
      | retry =>
          rcases hmeets.continues_retry hfails with
            hsame | ⟨left, -, hcontinues⟩
          · simp only [hsame, List.prefix_rfl]
          · exact hcontinues.isPrefix
  case continued =>
    intro other hother
    rcases hfirst with ⟨hok, -⟩ | ⟨failing, rest, before, reached, moment,
      failure, hmeets, hfails⟩
    · have hends := run_apply backends (workflow.under .stop) context [] world
      have hstops : ((workflow.under .stop).runSteps backends context
          (workflow.under .stop).steps ⟨context.state, []⟩ world).value.1 =
            .ok () := hok
      rw [hends] at hother
      simp only [closing] at hother
      split at hother
      · simp at hother
      · simp_all
    · rw [hmeets.run_stop hfails] at hother
      obtain rfl := Except.error.inj hother
      obtain ⟨done, hsplit⟩ := hmeets.split
      exact ⟨done, failing, rest, hsplit, hmeets.continues_carryOn hfails,
        hmeets.continues_retry hfails⟩
  case unfailing =>
    intro hnone
    rcases hfirst with ⟨-, hsame⟩ | ⟨failing, rest, before, reached, moment,
      failure, hmeets, hfails⟩
    · exact hagree hsame
    · exact absurd ⟨rest, reached, moment, hmeets.reaches .stop, hfails⟩
        (hnone failing failure)

end Workflow

end SkillEngine
