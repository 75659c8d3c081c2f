import SkillEngine.Proofs.Execution.Step
import SkillEngine.Proofs.Workflow.Answers
import SkillEngine.Proofs.Workflow.Execution

/-!
# The steps that complete

Which steps of a workflow complete is settled by its run; everything that the
run tells about it follows from that: the reports of progress, the number of
steps in the result, the intermediate results, the output, and where the
context stands in the end.

All of these are read off the results that have been collected, which say how
many steps completed only because every step has an id of its own.  The
invariant of the induction over the steps is therefore that the ids of the
steps that are left are new.
-/

namespace SkillEngine

/-! ## Reports of progress -/

/-- What an event reports about progress. -/
def Event.progress? : Event → Option (Nat × Nat × String)
  | .progressed done total message => some (done, total, message)
  | _ => none

/-- The reports of progress among events, in order. -/
def progressOf (events : List Event) : List (Nat × Nat × String) :=
  events.filterMap Event.progress?

@[simp] theorem progressOf_nil : progressOf [] = [] := rfl

@[simp] theorem progressOf_append (early late : List Event) :
    progressOf (early ++ late) = progressOf early ++ progressOf late := by
  simp [progressOf]

@[simp] theorem progressOf_progressed (done total : Nat) (message : String)
    (events : List Event) :
    progressOf (.progressed done total message :: events) =
      (done, total, message) :: progressOf events := rfl

@[simp] theorem progressOf_logged (line : LogLine) (events : List Event) :
    progressOf (.logged line :: events) = progressOf events := rfl

@[simp] theorem progressOf_generated (generator : String)
    (request : GenerationRequest) (answer : Except Failure Generation)
    (events : List Event) :
    progressOf (.generated generator request answer :: events) =
      progressOf events := rfl

@[simp] theorem progressOf_invoked (tool : String) (parameters : Json.Object)
    (answer : Except Failure Json) (events : List Event) :
    progressOf (.invoked tool parameters answer :: events) =
      progressOf events := rfl

variable {σ : Type} {backends : Backends σ} {context : Context}

@[simp] theorem progressOf_map_logged (log : List LogLine) :
    progressOf (log.map .logged) = [] := by
  induction log with
  | nil => rfl
  | cons line log ih => simpa using ih

theorem StepTask.Outcome.progressOf_events
    {ran : Ran σ (Except Failure StepOutput)} (h : StepTask.Outcome ran) :
    progressOf ran.events = [] := by
  cases h with
  | failed failure world => rfl
  | computed value world => rfl
  | generated generator request answer world => simp
  | invoked tool parameters answer log world => simp

/-- A step itself reports no progress. -/
theorem Step.Outcome.progressOf_events
    {ran : Ran σ (Except Failure StepOutput)} (h : Step.Outcome ran) :
    progressOf ran.events = [] := by
  induction h with
  | last hran => exact hran.progressOf_events
  | again hfirst failure hvalue line hlater ih =>
      simp [hfirst.progressOf_events, ih]

namespace Workflow

variable {workflow : Workflow}

/-! ## Going on with some steps -/

/-- The outputs of completed steps under their ids. -/
def outputsOf (completed : List (Step × StepOutput)) :
    List (String × Json) :=
  completed.map fun done => (done.1.id, done.2.value)

/-- What going on with the steps leads to, when those of the list complete. -/
structure Tallied (backends : Backends σ) (workflow : Workflow)
    (context : Context) (steps : List Step) (progress : Progress) (world : σ)
    (completed : List (Step × StepOutput))
    (ran : Ran σ (Except Failure Unit × Progress)) : Prop where
  exactly : ∀ step output, (step, output) ∈ completed ↔
    AnswersFrom backends workflow context (.choosing steps progress world) step
      (.ok output)
  inOrder : (completed.map Prod.fst).Sublist steps
  results : ran.value.2.results =
    progress.results.insertAll (outputsOf completed)
  progressed : progressOf ran.events = completed.mapIdx fun place done =>
    (progress.results.length + place + 1, workflow.steps.length, done.1.name)
  complete : workflow.onError ≠ .carryOn → ran.value.1 = .ok () →
    completed.map Prod.fst = steps
  stopped : ∀ failure, ran.value.1 = .error failure →
    workflow.onError ≠ .carryOn ∧
      ∃ failing rest,
        steps = completed.map Prod.fst ++ failing :: rest ∧
        ran.value.2.state.currentStep = some failing.id ∧
        AnswersFrom backends workflow context (.choosing steps progress world)
          failing (.error failure)

variable {step : Step} {steps : List Step} {progress : Progress} {world : σ}

theorem tallied_nil (progress : Progress) (world : σ) :
    Tallied backends workflow context [] progress world []
      (workflow.runSteps backends context [] progress world) where
  exactly := by
    intro step output
    simp [not_answersFrom_nil progress world]
  inOrder := List.Sublist.refl []
  results := rfl
  progressed := rfl
  complete := by
    intro _ _
    rfl
  stopped := by
    intro failure h
    simp [runSteps_nil] at h

/-- A step that completes comes before those that complete behind it. -/
theorem Tallied.ok {output : StepOutput}
    {completed : List (Step × StepOutput)}
    (hnew : progress.results.has step.id = false)
    (hvalue : (step.run backends workflow context progress.results
      world).value = .ok output)
    (h : Tallied backends workflow context steps
      ((progress.begin step).complete step output)
      (step.run backends workflow context progress.results world).world
      completed (workflow.runSteps backends context steps
        ((progress.begin step).complete step output)
        (step.run backends workflow context progress.results world).world)) :
    Tallied backends workflow context (step :: steps) progress world
      ((step, output) :: completed)
      (workflow.runSteps backends context (step :: steps) progress world) where
  exactly := by
    intro other answer
    rw [List.mem_cons, h.exactly, answersFrom_cons hvalue]
    simp [Stage.afterStep, eq_comm]
  inOrder := by
    rw [List.map_cons]
    exact h.inOrder.cons_cons step
  results := by
    rw [runSteps_of_ok hvalue]
    exact h.results
  progressed := by
    have hlength := Dict.length_insert hnew output.value
    have hown := (step.outcome_run backends workflow context progress.results
      world).progressOf_events
    rw [runSteps_of_ok hvalue, progressOf_append, hown, List.nil_append,
      progressOf_progressed, h.progressed, List.mapIdx_cons]
    simp only [Progress.complete_results, Progress.begin_results, hlength]
    simp [Nat.add_assoc, Nat.add_comm 1]
  complete := by
    intro honError hok
    rw [runSteps_of_ok hvalue] at hok
    rw [List.map_cons, h.complete honError hok]
  stopped := by
    intro failure hfailure
    rw [runSteps_of_ok hvalue] at hfailure ⊢
    obtain ⟨honError, failing, rest, hsplit, hcurrent, hanswers⟩ :=
      h.stopped failure hfailure
    refine ⟨honError, failing, rest, by simp [hsplit], hcurrent, ?_⟩
    rw [answersFrom_cons hvalue]
    exact .inr hanswers

/-- A step that is passed over does not complete. -/
theorem Tallied.skip {failure : Failure}
    {completed : List (Step × StepOutput)}
    (honError : workflow.onError = .carryOn)
    (hvalue : (step.run backends workflow context progress.results
      world).value = .error failure)
    (h : Tallied backends workflow context steps (progress.begin step)
      (step.run backends workflow context progress.results world).world
      completed (workflow.runSteps backends context steps (progress.begin step)
        (step.run backends workflow context progress.results world).world)) :
    Tallied backends workflow context (step :: steps) progress world completed
      (workflow.runSteps backends context (step :: steps) progress world) where
  exactly := by
    intro other answer
    rw [h.exactly, answersFrom_cons hvalue]
    simp [Stage.afterStep, Stage.afterFailure, honError]
  inOrder := h.inOrder.cons step
  results := by
    rw [runSteps_of_skip hvalue honError]
    exact h.results
  progressed := by
    have hown := (step.outcome_run backends workflow context progress.results
      world).progressOf_events
    rw [runSteps_of_skip hvalue honError, progressOf_append, hown,
      List.nil_append, progressOf_logged, h.progressed]
    rfl
  complete := fun hne => absurd honError hne
  stopped := by
    intro other hfailure
    rw [runSteps_of_skip hvalue honError] at hfailure
    exact absurd honError (h.stopped other hfailure).1

/-- A step at which the workflow stops is the last one. -/
theorem tallied_abort {failure : Failure}
    (honError : workflow.onError ≠ .carryOn)
    (hvalue : (step.run backends workflow context progress.results
      world).value = .error failure) :
    Tallied backends workflow context (step :: steps) progress world []
      (workflow.runSteps backends context (step :: steps) progress world) where
  exactly := by
    intro other answer
    rw [answersFrom_cons hvalue]
    simp [Stage.afterStep, Stage.afterFailure, honError,
      not_answersFrom_ended]
  inOrder := List.nil_sublist _
  results := by
    rw [runSteps_of_abort hvalue honError]
    rfl
  progressed := by
    rw [runSteps_of_abort hvalue honError]
    exact (step.outcome_run _ _ _ _ _).progressOf_events
  complete := by
    intro _ hok
    simp [runSteps_of_abort hvalue honError] at hok
  stopped := by
    intro other hfailure
    rw [runSteps_of_abort hvalue honError] at hfailure ⊢
    obtain rfl := Except.error.inj hfailure
    exact ⟨honError, step, steps, rfl, rfl, steps, progress, world, .refl,
      hvalue⟩

theorem exists_tallied (backends : Backends σ) (workflow : Workflow)
    (context : Context) (steps : List Step) (progress : Progress) (world : σ)
    (hnodup : (steps.map (·.id)).Nodup)
    (hnew : ∀ step ∈ steps, progress.results.has step.id = false) :
    ∃ completed, Tallied backends workflow context steps progress world
      completed (workflow.runSteps backends context steps progress world) := by
  induction steps generalizing progress world with
  | nil => exact ⟨[], tallied_nil progress world⟩
  | cons step steps ih =>
      obtain ⟨hother, hrest⟩ := List.nodup_cons.mp hnodup
      have hlater : ∀ later ∈ steps, progress.results.has later.id = false := by
        intro later hmem
        exact hnew later (List.mem_cons_of_mem _ hmem)
      cases hvalue : (step.run backends workflow context progress.results
        world).value with
      | ok output =>
          have hfresh : ∀ later ∈ steps, ((progress.begin step).complete step
              output).results.has later.id = false := by
            intro later hmem
            have hne : later.id ≠ step.id := by
              intro heq
              exact hother (List.mem_map.mpr ⟨later, hmem, heq⟩)
            simp [hne, hlater later hmem]
          obtain ⟨completed, h⟩ := ih _ _ hrest hfresh
          exact ⟨_, h.ok (hnew step List.mem_cons_self) hvalue⟩
      | error failure =>
          by_cases honError : workflow.onError = .carryOn
          · obtain ⟨completed, h⟩ := ih (progress.begin step) _ hrest hlater
            exact ⟨completed, h.skip honError hvalue⟩
          · exact ⟨[], tallied_abort honError hvalue⟩

/-! ## What an execution tells -/

/-- What an execution tells about its workflow, of which the steps of the list
complete, with their outputs. -/
structure Accounted (backends : Backends σ) (workflow : Workflow)
    (context : Context) (world : σ) (completed : List (Step × StepOutput))
    (ran : Ran σ (SkillResult × Context)) : Prop where
  /-- The list holds the steps to which the runner comes and which end with an
  output. -/
  exactly : ∀ step output, (step, output) ∈ completed ↔
    AnswersFrom backends workflow context (workflow.start context world) step
      (.ok output)
  /-- The steps are listed as they are declared. -/
  inOrder : (completed.map Prod.fst).Sublist workflow.steps
  progressed : progressOf ran.events = completed.mapIdx fun place done =>
    (place + 1, workflow.steps.length, done.1.name)
  counted : ran.value.1.details.map (·.stepsExecuted) = some completed.length
  intermediate : ran.value.1.success = true →
    ∃ results, ran.value.1.intermediateResults = some results ∧
      results.length = completed.length ∧
      ∀ name value, results.find? name = some value ↔
        ∃ done ∈ completed, done.1.id = name ∧ done.2.value = value
  /-- Unless the workflow carries on, only all steps make a success. -/
  complete : workflow.onError ≠ .carryOn → ran.value.1.success = true →
    completed.map Prod.fst = workflow.steps
  /-- The output is that of the last step, if this one completes. -/
  output : ∀ last, workflow.steps.getLast? = some last →
    (∀ output, (last, output) ∈ completed →
      ran.value.1.output = some output.value) ∧
    (last ∉ completed.map Prod.fst →
      ran.value.1.output = if ran.value.1.success then some .null else none)
  finished : ran.value.1.success = true →
    ran.value.2.state.currentStep = none
  /-- A failure is that of the first step that does not complete. -/
  stopped : ran.value.1.success = false →
    ∃ failing rest failure,
      workflow.steps = completed.map Prod.fst ++ failing :: rest ∧
      AnswersFrom backends workflow context (workflow.start context world)
        failing (.error failure) ∧
      ran.value.1.error = some failure.message ∧
      ran.value.2.state.currentStep = some failing.id

theorem progressOf_modeEvents (workflow : Workflow) :
    progressOf workflow.modeEvents = [] := by
  unfold modeEvents
  split <;> simp

/-- Where a workflow stops, its last step has not completed. -/
theorem last_not_mem {steps done rest : List Step} {failing last : Step}
    (hnodup : steps.Nodup) (hsplit : steps = done ++ failing :: rest)
    (hlast : steps.getLast? = some last) : last ∉ done := by
  intro hmem
  have hlater : last ∈ failing :: rest := by
    rw [hsplit, List.getLast?_append] at hlast
    apply List.mem_of_getLast?
    simpa using hlast
  rw [hsplit] at hnodup
  exact (List.nodup_append.mp hnodup).2.2 last hmem last hlater rfl

section Concluding

variable {completed : List (Step × StepOutput)}
  {ran : Ran σ (Except Failure Unit × Progress)}
  (h : Tallied backends workflow context workflow.steps ⟨context.state, []⟩
    world completed ran)
  (hnodup : (workflow.steps.map (·.id)).Nodup)

include h hnodup

theorem Tallied.nodup_outputs :
    ((outputsOf completed).map (·.1)).Nodup := by
  have hids : (outputsOf completed).map (·.1) =
      (completed.map Prod.fst).map (·.id) := by
    simp [outputsOf]
  rw [hids]
  exact hnodup.sublist (h.inOrder.map _)

theorem Tallied.length_results :
    ran.value.2.results.length = completed.length := by
  have hlength := (Dict.ofList_perm (h.nodup_outputs hnodup)).length_eq
  have hresults : ran.value.2.results = Dict.ofList (outputsOf completed) :=
    h.results
  rw [hresults, hlength]
  simp [outputsOf]

theorem Tallied.find?_results (name : String) (value : Json) :
    ran.value.2.results.find? name = some value ↔
      ∃ done ∈ completed, done.1.id = name ∧ done.2.value = value := by
  have houtputs := h.nodup_outputs hnodup
  have hresults : ran.value.2.results = Dict.ofList (outputsOf completed) :=
    h.results
  rw [hresults, Dict.find?_ofList houtputs, Dict.find?_eq_some_iff houtputs]
  simp [outputsOf]

/-- A step that did not complete has no result. -/
theorem Tallied.find?_eq_none {step : Step} (hstep : step ∈ workflow.steps)
    (hmissing : step ∉ completed.map Prod.fst) :
    ran.value.2.results.find? step.id = none := by
  rw [Option.eq_none_iff_forall_ne_some]
  intro value hvalue
  obtain ⟨done, hdone, hid, -⟩ := (h.find?_results hnodup _ _).mp hvalue
  have hmem : done.1 ∈ completed.map Prod.fst := List.mem_map_of_mem hdone
  have hsame : done.1 = step :=
    List.inj_on_of_nodup_map hnodup (h.inOrder.subset hmem) hstep hid
  exact hmissing (hsame ▸ hmem)

theorem Tallied.output_of_mem {last : Step}
    (hlast : workflow.steps.getLast? = some last) {output : StepOutput}
    (hmem : (last, output) ∈ completed) :
    workflow.output ran.value.2.results = output.value := by
  have hresult : ran.value.2.results.find? last.id = some output.value := by
    apply (h.find?_results hnodup _ _).mpr
    exact ⟨_, hmem, rfl, rfl⟩
  simp [Workflow.output, hlast, hresult]

theorem Tallied.output_of_not_mem {last : Step}
    (hlast : workflow.steps.getLast? = some last)
    (hmissing : last ∉ completed.map Prod.fst) :
    workflow.output ran.value.2.results = .null := by
  have hstep : last ∈ workflow.steps := List.mem_of_getLast? hlast
  have hresult := h.find?_eq_none hnodup hstep hmissing
  simp [Workflow.output, hlast, hresult]

/-- What the skill makes of the run of its steps. -/
theorem Tallied.accounted (tokensBefore : UInt64) :
    workflow.Accounted backends context world completed
      ⟨Skill.conclude tokensBefore (workflow.handOver context ran.value),
        workflow.modeEvents ++ ran.events, ran.world⟩ := by
  have hprogressed : progressOf (workflow.modeEvents ++ ran.events) =
      completed.mapIdx fun place done =>
        (place + 1, workflow.steps.length, done.1.name) := by
    rw [progressOf_append, progressOf_modeEvents, List.nil_append,
      h.progressed]
    simp
  have hlength := h.length_results hnodup
  rcases hvalue : ran.value with ⟨failure | _, progress⟩
  · -- The workflow stopped.
    obtain ⟨honError, failing, rest, hsplit, hcurrent, hanswers⟩ :=
      h.stopped failure (congrArg Prod.fst hvalue)
    rw [hvalue] at hlength hcurrent
    constructor
    case exactly => exact h.exactly
    case inOrder => exact h.inOrder
    case progressed => exact hprogressed
    case counted => exact congrArg some hlength
    case intermediate =>
      intro hsuccess
      cases hsuccess
    case complete =>
      intro _ hsuccess
      cases hsuccess
    case output =>
      intro last hlast
      have hmissing := last_not_mem (List.Nodup.of_map _ hnodup) hsplit hlast
      constructor
      · intro output hmem
        exact absurd (List.mem_map_of_mem hmem) hmissing
      · intro _
        rfl
    case finished =>
      intro hsuccess
      cases hsuccess
    case stopped =>
      intro _
      exact ⟨failing, rest, failure, hsplit, hanswers, rfl, hcurrent⟩
  · -- The workflow came to its end.
    have hok : ran.value.1 = .ok () := congrArg Prod.fst hvalue
    have hresults : ran.value.2.results = progress.results :=
      congrArg (·.2.results) hvalue
    rw [hresults] at hlength
    constructor
    case exactly => exact h.exactly
    case inOrder => exact h.inOrder
    case progressed => exact hprogressed
    case counted => exact congrArg some hlength
    case intermediate =>
      intro _
      refine ⟨progress.results, rfl, hlength, ?_⟩
      intro name value
      rw [← hresults]
      exact h.find?_results hnodup name value
    case complete =>
      intro honError _
      exact h.complete honError hok
    case output =>
      intro last hlast
      constructor
      · intro output hmem
        have houtput := h.output_of_mem hnodup hlast hmem
        rw [hresults] at houtput
        exact congrArg some houtput
      · intro hmissing
        have houtput := h.output_of_not_mem hnodup hlast hmissing
        rw [hresults] at houtput
        exact congrArg some houtput
    case finished =>
      intro _
      rfl
    case stopped =>
      intro hfailure
      cases hfailure

end Concluding

/-- Every execution of a valid workflow skill with its parameters given tells
exactly which steps completed. -/
theorem executeWithin_accounts_steps (backends : Backends σ)
    {skills : Dict Skill} {id : String} {skill : Skill}
    (hfind : skills.find? id = some skill)
    (hdefinition : skill.definition = .workflow workflow)
    (henabled : skill.enabled = true) (hvalid : skill.validate = [])
    (hgiven : (applyParameters skill.parameters context.input).1 = .ok ())
    (levels : Nat) (world : σ) :
    ∃ completed, workflow.Accounted backends (skill.prepared context) world
      completed
      (executeWithin backends skills (levels + 1) id context world) := by
  have hordered : workflow.Ordered :=
    Skill.ordered_of_validate hdefinition hvalid
  have hrefusal : skill.refusal? (levels + 1) id = none :=
    Skill.refusal?_eq_none.mpr ⟨henabled, by simp, hvalid⟩
  obtain ⟨completed, htallied⟩ :=
    exists_tallied backends workflow (skill.prepared context) workflow.steps
      ⟨(skill.prepared context).state, []⟩ world hordered.nodup
      (fun _ _ => rfl)
  refine ⟨completed, ?_⟩
  rw [executeWithin_of_accepted hfind hrefusal, Skill.run_of_given hgiven,
    hdefinition, Definition.run, dispatch_apply]
  exact htallied.accounted hordered.nodup _

/-- A workflow that carries on when a tool is missing completes the other two
of its steps. -/
theorem carriedOn_accounts_steps :
    let steps : List Step :=
      [SkillLibrary.promptStep "draft" "Draft" [] (SkillLibrary.sampling 5 100)
          ("A note on " ++ Template.slot "topic"),
        (StepTask.tool ⟨"publish", .null⟩).step "publish" "Publish" ["draft"],
        SkillLibrary.promptStep "review" "Review" ["draft"]
          (SkillLibrary.sampling 3 100)
          ("Review: " ++ Template.slot "draft")]
    let workflow : Workflow :=
      ⟨steps, [SkillLibrary.requiredText "topic" "Topic"], [], .sequential,
        .carryOn, none⟩
    let skill := (Definition.workflow workflow).skill "note" "Note" "A note"
      .custom []
    let context : Context :=
      ⟨[("topic", .string "rain")], .empty, ⟨"mock", none⟩, .empty⟩
    let backends : Backends Scripted.World :=
      ⟨Router.empty.add (Scripted.echo "mock" 0), Host.empty.registry⟩
    let ran := execute backends [("note", skill)] "note" context .empty
    skill.validate = [] ∧
      (applyParameters skill.parameters context.input).1 = .ok () ∧
      progressOf ran.events = [(1, 3, "Draft"), (2, 3, "Review")] ∧
      ∃ completed, completed.length = 2 ∧
        workflow.Accounted backends (skill.prepared context) .empty completed
          ran := by
  intro steps workflow skill context backends ran
  have hvalid : skill.validate = [] := by decide
  have hfind : Dict.find? [("note", skill)] "note" = some skill := by rfl
  have hgiven : (applyParameters skill.parameters context.input).1 = .ok () := by
    rfl
  have hprogress : progressOf ran.events =
      [(1, 3, "Draft"), (2, 3, "Review")] := by decide
  obtain ⟨completed, haccounted⟩ := executeWithin_accounts_steps backends hfind
    rfl rfl hvalid hgiven maxDepth Scripted.World.empty
  have hlength : completed.length = 2 := by
    have hreports := congrArg List.length haccounted.progressed
    rw [List.length_mapIdx] at hreports
    exact hreports.symm.trans (congrArg List.length hprogress)
  exact ⟨hvalid, hgiven, hprogress, completed, hlength, haccounted⟩

end Workflow

end SkillEngine
