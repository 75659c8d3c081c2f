import Mathlib.Tactic.FinCases
import SkillEngine.Proofs.Workflow.Completion

/-!
# What the check of a workflow foresees

The check of a workflow and its runner look at dependencies in two ways.  The
check compares them with the ids that are declared, and tells apart steps that
depend on themselves, on none of the workflow, or on a later one; the runner
looks for a dependency without a result.  Where no attempt at a step fails
they see the same: the runner stops at the first fault that the check lists,
for want of the dependency which that fault is about, and runs to the end if
there is none.

The invariant is that the ids with a result are those of the steps so far.
-/

namespace SkillEngine

/-- The dependency that a fault is about, if it is about one. -/
def Violation.dependency? : Violation → Option String
  | .selfDependency step => some step
  | .unknownDependency _ dependency => some dependency
  | .laterDependency _ dependency => some dependency
  | _ => none

/-! ## The faults of one step -/

namespace Step

variable {step : Step} {all earlier : List String} {results : Json.Object}

theorem findSome?_idViolations :
    (step.idViolations earlier).findSome? Violation.dependency? = none := by
  unfold idViolations
  split
  · rfl
  · split <;> rfl

theorem findSome?_kindViolations :
    step.kindViolations.findSome? Violation.dependency? = none := by
  unfold kindViolations
  split <;> rfl

section Results

variable (hresults : ∀ name, results.has name = true ↔ name ∈ earlier)
  (hnew : step.id ∉ earlier) (hall : earlier ⊆ all)

include hresults hnew hall

/-- A dependency is at fault when it has no result, whatever the fault. -/
theorem bind_dependencyViolation? (dependency : String) :
    (step.dependencyViolation? all earlier dependency).bind
        Violation.dependency? =
      if results.has dependency then none else some dependency := by
  have hmissing : ∀ name, name ∉ earlier → results.has name = false := by
    intro name hname
    rwa [← hresults, Bool.not_eq_true] at hname
  unfold dependencyViolation?
  split
  next hself =>
    subst hself
    simp [hmissing _ hnew, Violation.dependency?]
  next =>
    split
    next hunknown =>
      have hnone := hmissing dependency fun hmem => hunknown (hall hmem)
      simp [hnone, Violation.dependency?]
    next =>
      split
      next hlater => simp [hmissing _ hlater, Violation.dependency?]
      next hmem =>
        have hhas := (hresults dependency).mpr (not_not.mp hmem)
        simp [hhas]

/-- The first fault of a step about a dependency is about the first one that
has no result. -/
theorem findSome?_violations :
    (step.violations all earlier).findSome? Violation.dependency? =
      step.unmet? results := by
  have hdependency := bind_dependencyViolation? hresults hnew hall
  rw [violations, List.findSome?_append, List.findSome?_append,
    findSome?_idViolations, findSome?_kindViolations, Option.none_or,
    Option.none_or, unmet?]
  induction step.dependsOn with
  | nil => rfl
  | cons dependency dependencies ih =>
    have hfirst := hdependency dependency
    rw [List.find?_cons, List.filterMap_cons]
    cases hhas : results.has dependency with
    | true =>
      rw [hhas, if_pos rfl] at hfirst
      cases hviolation : step.dependencyViolation? all earlier dependency with
      | none => exact ih
      | some violation =>
        rw [hviolation, Option.bind_some] at hfirst
        simp only [List.findSome?_cons, hfirst]
        exact ih
    | false =>
      rw [hhas] at hfirst
      obtain ⟨violation, hviolation, hnamed⟩ : ∃ violation,
          step.dependencyViolation? all earlier dependency = some violation ∧
            violation.dependency? = some dependency := by
        simpa [Option.bind_eq_some_iff] using hfirst
      simp only [hviolation, List.findSome?_cons, hnamed]
      rfl

end Results

end Step

variable {σ : Type} {backends : Backends σ} {workflow : Workflow}
  {context : Context}

/-! ## The two ends of one step -/

namespace Step

variable {step : Step} {results : Json.Object} {world : σ}

theorem value_run_of_unmet {dependency : String}
    (h : step.unmet? results = some dependency) :
    (step.run backends workflow context results world).value =
      .error (.dependencyNotMet dependency) := by
  simp only [Step.run, h]
  rfl

theorem value_run_of_ok {output : StepOutput}
    (hmet : step.unmet? results = none)
    (h : (step.task.execute backends context results world).value =
      .ok output) :
    (step.run backends workflow context results world).value = .ok output := by
  simp only [Step.run, hmet]
  rw [attempt_of_ok _ _ h, h]

end Step

namespace Workflow

/-! ## Runs in which no attempt fails -/

/-- Behind a stage no attempt at a step fails. -/
def SucceedsFrom (backends : Backends σ) (workflow : Workflow)
    (context : Context) (stage : Stage σ) : Prop :=
  ∀ step left rest progress world,
    Reaches backends workflow context stage
      (.trying step left rest progress world) →
    ∃ output, (step.task.execute backends context progress.results
      world).value = .ok output

theorem SucceedsFrom.of_reaches {first second : Stage σ}
    (h : SucceedsFrom backends workflow context first)
    (hreach : Reaches backends workflow context first second) :
    SucceedsFrom backends workflow context second := by
  intro step left rest progress world hlater
  exact h step left rest progress world (hreach.trans hlater)

/-- The steps with which the runner is not done. -/
def Stage.stepsLeft : Stage σ → List Step
  | .choosing rest _ _ => rest
  | .trying step _ rest _ _ => step :: rest
  | .ended _ _ _ => []

theorem stepsLeft_afterFailure (failure : Failure) (step : Step)
    (rest : List Step) (progress : Progress) (world : σ) :
    (Stage.afterFailure workflow failure rest progress world).stepsLeft <:+
      step :: rest := by
  rw [Stage.afterFailure]
  split
  · exact List.suffix_cons step rest
  · exact List.nil_suffix

theorem stepsLeft_of_move {first second : Stage σ}
    (h : Move backends workflow context first second) :
    second.stepsLeft <:+ first.stepsLeft := by
  cases h with
  | finish => exact List.suffix_rfl
  | refuse => exact stepsLeft_afterFailure _ _ _ _ _
  | enter => exact List.suffix_rfl
  | complete => exact List.suffix_cons _ _
  | retry => exact List.suffix_rfl
  | fail => exact stepsLeft_afterFailure _ _ _ _ _

theorem stepsLeft_of_reaches {first second : Stage σ}
    (h : Reaches backends workflow context first second) :
    second.stepsLeft <:+ first.stepsLeft := by
  induction h with
  | refl => exact List.suffix_rfl
  | tail _ hmove ih => exact (stepsLeft_of_move hmove).trans ih

/-- No attempt fails when no step can. -/
theorem succeedsFrom_start
    (h : ∀ step ∈ workflow.steps, ∀ results world, ∃ output,
      (step.task.execute backends context results world).value = .ok output)
    (world : σ) :
    SucceedsFrom backends workflow context (workflow.start context world) := by
  intro step left rest progress moment hreach
  have hmem : step ∈ workflow.steps :=
    (stepsLeft_of_reaches hreach).subset List.mem_cons_self
  exact h step hmem progress.results moment

/-- A prompt does not fail with a generator that always answers. -/
theorem exists_output_of_prompt {request : PromptTask} {generator : Generator σ}
    (hresolve : backends.router.resolve
      ((request.model.bind (·.provider)).getD context.aiConfig.provider) =
        .ok generator)
    (hanswers : ∀ prompt world, ∃ generation,
      (generator.answer prompt world).1 = .ok generation)
    (results : Json.Object) (world : σ) :
    ∃ output, ((StepTask.prompt request).execute backends context results
      world).value = .ok output := by
  obtain ⟨generation, hanswer⟩ := hanswers
    ⟨Template.fill request.template (mergedInput context.input results),
      .of context none request.model⟩ world
  refine ⟨⟨.string generation.text, generation.tokens⟩, ?_⟩
  simp [StepTask.execute, Backends.generate, hresolve, Backends.ask, hanswer,
    Except.map]

/-! ## The faults of all steps -/

/-- What the runner makes of the first fault about a dependency. -/
def foreseen (violations : List Violation) : Except Failure Unit :=
  match violations.findSome? Violation.dependency? with
  | some dependency => .error (.dependencyNotMet dependency)
  | none => .ok ()

/-- From where the results are those of the earlier steps, the runner ends as
the faults of the steps that are left say. -/
theorem runSteps_eq_foreseen {all earlier : List String} {steps : List Step}
    {progress : Progress} {world : σ}
    (hresults : ∀ name, progress.results.has name = true ↔ name ∈ earlier)
    (hnodup : (steps.map (·.id)).Nodup)
    (hnew : ∀ step ∈ steps, step.id ∉ earlier)
    (hall : earlier ++ steps.map (·.id) ⊆ all)
    (honError : workflow.onError ≠ .carryOn)
    (hsucceeds : SucceedsFrom backends workflow context
      (.choosing steps progress world)) :
    (workflow.runSteps backends context steps progress world).value.1 =
      foreseen (Step.listViolations all earlier steps) := by
  induction steps generalizing earlier progress world with
  | nil => rfl
  | cons step steps ih =>
    obtain ⟨hother, hrest⟩ := List.nodup_cons.mp hnodup
    have hstep := hnew step List.mem_cons_self
    have hfirst := Step.findSome?_violations hresults hstep
      fun name hname => hall (List.mem_append_left _ hname)
    rw [Step.listViolations, foreseen, List.findSome?_append, hfirst]
    cases hunmet : step.unmet? progress.results with
    | some dependency =>
      rw [runSteps_of_abort (Step.value_run_of_unmet hunmet) honError]
      rfl
    | none =>
      obtain ⟨output, hanswer⟩ := hsucceeds step _ steps _ world
        (Move.enter hunmet).reaches
      have hvalue : (step.run backends workflow context progress.results
          world).value = .ok output :=
        Step.value_run_of_ok hunmet hanswer
      have hnext := reaches_step backends workflow context step steps progress
        world
      simp only [hvalue, Stage.afterStep] at hnext
      rw [runSteps_of_ok hvalue, Option.none_or]
      have hlater : ∀ later ∈ steps, later.id ∉ step.id :: earlier := by
        intro later hmem hid
        rcases List.mem_cons.mp hid with hid | hid
        · exact hother (List.mem_map.mpr ⟨later, hmem, hid⟩)
        · exact hnew later (List.mem_cons_of_mem _ hmem) hid
      refine ih ?_ hrest hlater ?_ (hsucceeds.of_reaches hnext)
      · intro name
        simp [hresults]
      · intro name hname
        apply hall
        simp only [List.map_cons, List.mem_append, List.mem_cons] at hname ⊢
        tauto

/-! ## The whole workflow -/

theorem outcome_closing (workflow : Workflow)
    (reached : Except Failure Unit × Progress) :
    (workflow.closing reached).1 =
      reached.1.map fun _ => workflow.output reached.2.results := by
  rcases reached with ⟨_ | _, _⟩ <;> rfl

theorem results_closing (workflow : Workflow)
    (reached : Except Failure Unit × Progress) :
    (workflow.closing reached).2.results = reached.2.results := by
  rcases reached with ⟨_ | _, _⟩ <;> rfl

/-- The run of a workflow ends as the faults of the workflow say. -/
structure Foreseen (backends : Backends σ) (workflow : Workflow)
    (context : Context) (world : σ)
    (ran : Ran σ (Except Failure Json × Progress)) : Prop where
  /-- It fails for want of a dependency when a fault is about one. -/
  fails_iff :
    (∃ dependency, ran.value.1 = .error (.dependencyNotMet dependency)) ↔
      ∃ violation ∈ workflow.graphViolations,
        violation.dependency?.isSome = true
  /-- The dependency is the one that the first such fault is about. -/
  first : ∀ dependency,
    ran.value.1 = .error (.dependencyNotMet dependency) ↔
      workflow.graphViolations.findSome? Violation.dependency? =
        some dependency
  /-- Otherwise every step completes, and the workflow with them. -/
  completes :
    (∀ violation ∈ workflow.graphViolations, violation.dependency? = none) →
      ran.value.1 = .ok (workflow.output ran.value.2.results) ∧
        ∀ step ∈ workflow.steps, ∃ output,
          AnswersFrom backends workflow context (workflow.start context world)
            step (.ok output) ∧
          ran.value.2.results.find? step.id = some output.value

theorem error_of_foreseen {violations : List Violation} {output : Json}
    {dependency : String} :
    (foreseen violations).map (fun _ => output) =
        .error (.dependencyNotMet dependency) ↔
      violations.findSome? Violation.dependency? = some dependency := by
  cases hfirst : violations.findSome? Violation.dependency? with
  | none => simp [foreseen, hfirst, Except.map]
  | some other => simp [foreseen, hfirst, Except.map]

/-- When no attempt at a step fails, the check of a workflow foresees how its
run ends, as long as the ids of the steps are different. -/
theorem run_foreseen (hnodup : (workflow.steps.map (·.id)).Nodup)
    (honError : workflow.onError ≠ .carryOn) {world : σ}
    (hsucceeds : SucceedsFrom backends workflow context
      (workflow.start context world)) :
    workflow.Foreseen backends context world
      (workflow.run backends context [] world) := by
  obtain ⟨completed, htallied⟩ := exists_tallied backends workflow context
    workflow.steps ⟨context.state, []⟩ world hnodup (fun _ _ => rfl)
  have hends : (workflow.runSteps backends context workflow.steps
      ⟨context.state, []⟩ world).value.1 =
        foreseen workflow.graphViolations :=
    runSteps_eq_foreseen (by simp [Dict.has]) hnodup (by simp) (by simp)
      honError hsucceeds
  rw [run_apply]
  generalize workflow.runSteps backends context workflow.steps
    ⟨context.state, []⟩ world = stepped at htallied hends ⊢
  have houtcome := outcome_closing workflow stepped.value
  rw [hends] at houtcome
  have hfirst : ∀ dependency, (workflow.closing stepped.value).1 =
      .error (.dependencyNotMet dependency) ↔
        workflow.graphViolations.findSome? Violation.dependency? =
          some dependency := by
    intro dependency
    rw [houtcome, error_of_foreseen]
  constructor
  case first => exact hfirst
  case fails_iff =>
    simp only [hfirst]
    rw [← Option.isSome_iff_exists, List.findSome?_isSome_iff]
  case completes =>
    intro hnone
    rw [← List.findSome?_eq_none_iff] at hnone
    have hok : stepped.value.1 = .ok () := by
      rw [hends, foreseen, hnone]
    constructor
    · rw [houtcome, ← hends, hok, results_closing]
      rfl
    · intro step hstep
      rw [← htallied.complete honError hok, List.mem_map] at hstep
      obtain ⟨⟨step, output⟩, hmem, rfl⟩ := hstep
      refine ⟨output, (htallied.exactly step output).mp hmem, ?_⟩
      rw [results_closing, htallied.find?_results hnodup]
      exact ⟨_, hmem, rfl, rfl⟩

/-- A workflow that reviews a note only after it is published stops before it
publishes, although no generation fails. -/
theorem misordered_foreseen :
    let steps : List Step :=
      [SkillLibrary.promptStep "draft" "Draft" [] (SkillLibrary.sampling 5 100)
          ("A note on " ++ Template.slot "topic"),
        SkillLibrary.promptStep "publish" "Publish" ["draft", "review"]
          (SkillLibrary.sampling 3 100) ("Publish: " ++ Template.slot "draft"),
        SkillLibrary.promptStep "review" "Review" ["draft"]
          (SkillLibrary.sampling 3 100) ("Review: " ++ Template.slot "draft")]
    let workflow : Workflow := ⟨steps, [], [], .sequential, .stop, none⟩
    let context : Context :=
      ⟨[("topic", .string "rain")], .empty, ⟨"mock", none⟩, .empty⟩
    let backends : Backends Scripted.World :=
      ⟨Router.empty.add (Scripted.echo "mock" 0), Host.empty.registry⟩
    let ran := workflow.run backends context [] .empty
    (steps.map (·.id)).Nodup ∧
      SucceedsFrom backends workflow context (workflow.start context .empty) ∧
      workflow.graphViolations = [.laterDependency "publish" "review"] ∧
      ran.value.1 = .error (.dependencyNotMet "review") ∧
      workflow.Foreseen backends context .empty ran := by
  intro steps workflow context backends ran
  have hnodup : (steps.map (·.id)).Nodup := by decide
  have hresolve : backends.router.resolve "mock" =
      .ok (Scripted.echo "mock" 0) := by
    have hsame : Text.equalIgnoringAsciiCase "mock" "mock" = true := by decide
    simp [backends, Router.resolve, Router.find?, Router.wanted, Router.add,
      Router.empty, Scripted.echo, hsame]
  have hprompt : ∀ request : PromptTask,
      request.model.bind (·.provider) = none → ∀ results world, ∃ output,
        ((StepTask.prompt request).execute backends context results
          world).value = .ok output := by
    intro request hprovider
    apply exists_output_of_prompt
    · rw [hprovider]
      exact hresolve
    · intro prompt world
      exact ⟨_, rfl⟩
  have hsucceeds : SucceedsFrom backends workflow context
      (workflow.start context .empty) := by
    apply succeedsFrom_start
    intro step hstep
    fin_cases hstep <;> exact hprompt _ rfl
  have hfaults : workflow.graphViolations =
      [.laterDependency "publish" "review"] := by decide
  have hforeseen : workflow.Foreseen backends context .empty ran :=
    run_foreseen hnodup (by decide) hsucceeds
  refine ⟨hnodup, hsucceeds, hfaults, ?_, hforeseen⟩
  rw [hforeseen.first, hfaults]
  rfl

end Workflow

end SkillEngine
