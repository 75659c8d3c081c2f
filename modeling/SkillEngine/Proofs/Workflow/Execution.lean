import SkillEngine.Proofs.Execution.Engine
import SkillEngine.Proofs.Failure
import SkillEngine.Proofs.Generator.Router
import SkillEngine.Proofs.Tool.Registry
import SkillEngine.Proofs.Workflow.Dependencies
import SkillEngine.Scripted.Generator
import SkillEngine.Skill.Library

/-!
# Executing a workflow skill

With the equations for the call of a skill, the facts about the run of its
steps become facts about an execution: the calls of an execution are made by
attempts at steps whose dependencies are met, and the dependency check never
ends an execution unless the workflow carries on after failures.
-/

namespace SkillEngine

variable {σ : Type} {backends : Backends σ} {context : Context}

namespace Workflow

variable {workflow : Workflow}

/-! ## From the call to the steps -/

/-- What a run reports about a mode that is not followed. -/
def modeEvents (workflow : Workflow) : List Event :=
  if workflow.mode ≠ .sequential then
    [.logged ⟨.warn, modeText workflow.mode⟩]
  else []

/-- The outcome of a workflow from that of its steps. -/
def closing (workflow : Workflow) :
    Except Failure Unit × Progress → Except Failure Json × Progress
  | (.ok (), progress) =>
    (.ok (workflow.output progress.results), progress.finish)
  | (.error failure, progress) => (.error failure, progress)

theorem run_apply (backends : Backends σ) (workflow : Workflow)
    (context : Context) (results : Json.Object) (world : σ) :
    let ran := workflow.runSteps backends context workflow.steps
      ⟨context.state, results⟩ world
    workflow.run backends context results world =
      ⟨workflow.closing ran.value, workflow.modeEvents ++ ran.events,
        ran.world⟩ := by
  intro ran
  have hran : workflow.runSteps backends context workflow.steps
      ⟨context.state, results⟩ world = ran := rfl
  rcases hvalue : ran.value with ⟨_ | _, progress⟩
  all_goals
    by_cases hmode : workflow.mode = .sequential
    · simp [run, hmode, hran, hvalue, closing, modeEvents]
    · simp [run, hmode, hran, hvalue, closing, modeEvents]

/-- What the run of the steps leads to for the skill. -/
def handOver (workflow : Workflow) (context : Context) :
    Except Failure Unit × Progress → Except Failure Dispatched × Context
  | (.ok (), progress) =>
    (.ok ⟨workflow.output progress.results, progress.results.length,
        some progress.results⟩,
      { context with state := progress.finish.state }.withOutputs [])
  | (.error failure, progress) =>
    (.error failure,
      { context with state := progress.state }.withOutputs progress.results)

theorem dispatch_apply (backends : Backends σ) (workflow : Workflow)
    (context : Context) (world : σ) :
    let ran := workflow.runSteps backends context workflow.steps
      ⟨context.state, []⟩ world
    workflow.dispatch backends context world =
      ⟨workflow.handOver context ran.value, workflow.modeEvents ++ ran.events,
        ran.world⟩ := by
  intro ran
  have hrun : workflow.run backends context [] world =
      ⟨workflow.closing ran.value, workflow.modeEvents ++ ran.events,
        ran.world⟩ := run_apply backends workflow context [] world
  rw [dispatch, Run.bind_apply, hrun]
  rcases ran.value with ⟨_ | _, progress⟩
  · simp [closing, handOver]
  · simp [closing, handOver]

theorem not_call_of_modeEvents {event : Event}
    (h : event ∈ workflow.modeEvents) : ¬event.IsCall := by
  unfold modeEvents at h
  split at h
  · obtain rfl := List.mem_singleton.mp h
    exact id
  · simp at h

end Workflow

/-! ## Failures that read like one of the dependency check -/

/-- Among the events a generator answers with the failure. -/
def AnsweredWith (failure : Failure) (events : List Event) : Prop :=
  ∃ generator request,
    .generated generator request (.error failure) ∈ events

/-- Among the events is the call of a tool for which the registry passes the
failure on. -/
def ToolRegistry.FailsWith (registry : ToolRegistry σ) (failure : Failure)
    (events : List Event) : Prop :=
  ∃ tool parameters context world answer,
    registry.call tool parameters context world =
        .answered answer (.error failure) ∧
      .invoked tool parameters answer.value ∈ events

/-- The failure comes from a generator, or from tools that are not those of a
host. -/
def Backends.Gives (backends : Backends σ) (failure : Failure)
    (events : List Event) : Prop :=
  AnsweredWith failure events ∨
    backends.tools.FailsWith failure events ∧
      ∀ host : Host σ, backends.tools ≠ host.registry

theorem Backends.Gives.mono {failure : Failure} {events all : List Event}
    (h : backends.Gives failure events) (hsub : events ⊆ all) :
    backends.Gives failure all := by
  rcases h with ⟨generator, request, hmem⟩ | ⟨hfails, hhost⟩
  · exact .inl ⟨generator, request, hsub hmem⟩
  · obtain ⟨tool, parameters, given, world, answer, hcall, hmem⟩ := hfails
    exact .inr ⟨⟨tool, parameters, given, world, answer, hcall, hsub hmem⟩,
      hhost⟩

/-- No refusal reads like one of the dependency check. -/
theorem Refusal.not_readsUnmet (refusal : Refusal) :
    ¬refusal.failure.ReadsUnmet := by
  cases refusal with
  | toolNotFound tool =>
      exact Failure.not_readsUnmet (by simp [failure]) (by simp [failure])
  | pluginNotEnabled plugin =>
      exact Failure.not_readsUnmet (by simp [failure]) (by simp [failure])

/-- The host reports every failure of a tool as one of its execution. -/
theorem Host.not_readsUnmet_report (tool : String) (failure : Failure) :
    ¬(report tool failure).ReadsUnmet := by
  unfold report
  split
  · exact Failure.not_readsUnmet (by simp) (by simp)
  · exact Failure.not_readsUnmet (by simp) (by simp)

theorem Host.not_failsWith {failure : Failure} (hreads : failure.ReadsUnmet)
    (host : Host σ) (events : List Event) :
    ¬host.registry.FailsWith failure events := by
  rintro ⟨tool, parameters, given, world, answer, hcall, -⟩
  cases hlookup : host.lookup tool with
  | error refusal => simp [call_of_refused hlookup] at hcall
  | ok found =>
      rw [call_of_found hlookup, Invocation.answered.injEq] at hcall
      cases hanswer : (found.handle parameters given world).value with
      | ok value => simp [passOn, hanswer] at hcall
      | error other =>
          obtain rfl : report tool other = failure := by
            simpa [passOn, hanswer] using hcall.2
          exact not_readsUnmet_report tool other hreads

/-- A call of a tool fails like the dependency check only when the registry
passes such a failure on. -/
theorem ToolRegistry.failsWith_of_invoke {registry : ToolRegistry σ}
    {tool : String} {parameters : Json.Object} {given : ToolContext}
    {world : σ} {failure : Failure}
    (h : (registry.invoke tool parameters given world).value = .error failure)
    (hreads : failure.ReadsUnmet) :
    registry.FailsWith failure
      (registry.invoke tool parameters given world).events := by
  cases hcall : registry.call tool parameters given world with
  | refused refusal =>
      rw [invoke_of_refused hcall] at h
      obtain rfl := Except.error.inj h
      exact absurd hreads refusal.not_readsUnmet
  | answered answer passed =>
      rw [invoke_of_answered hcall] at h ⊢
      obtain rfl : passed = .error failure := h
      exact ⟨tool, parameters, given, world, answer, hcall,
        List.mem_cons_self⟩

theorem Backends.gives_of_invoke {tool : String} {parameters : Json.Object}
    {given : ToolContext} {world : σ} {failure : Failure}
    (h : (backends.tools.invoke tool parameters given world).value =
      .error failure)
    (hreads : failure.ReadsUnmet) :
    backends.Gives failure
      (backends.tools.invoke tool parameters given world).events := by
  have hfails := ToolRegistry.failsWith_of_invoke h hreads
  refine .inr ⟨hfails, fun host hhost => ?_⟩
  rw [hhost] at hfails
  exact host.not_failsWith hreads _ hfails

theorem Router.not_readsUnmet_of_resolve {router : Router σ}
    {provider : String} {failure : Failure}
    (h : router.resolve provider = .error failure) :
    ¬failure.ReadsUnmet := by
  rw [failure_of_resolve h, unavailable]
  exact Failure.not_readsUnmet (by simp) (by simp)

theorem ToolTask.not_readsUnmet_of_resolved {task : ToolTask}
    {input results : Json.Object} {failure : Failure}
    (h : task.resolved input results = .error failure) :
    ¬failure.ReadsUnmet := by
  rw [eq_parametersFault h, parametersFault]
  exact Failure.not_readsUnmet (by simp) (by simp)

/-- A generation fails like the dependency check only when the generator
answers with that failure. -/
theorem Backends.answeredWith_of_generate {prompt : String}
    {systemPrompt : Option String} {model : Option ModelChoice} {world : σ}
    {failure : Failure}
    (h : (backends.generate context prompt systemPrompt model world).value =
      .error failure)
    (hreads : failure.ReadsUnmet) :
    AnsweredWith failure
      (backends.generate context prompt systemPrompt model world).events := by
  rw [generate] at h ⊢
  cases hresolve : backends.router.resolve
      ((model.bind (·.provider)).getD context.aiConfig.provider) with
  | error other =>
      obtain rfl : other = failure := by simpa [hresolve] using h
      exact absurd hreads (Router.not_readsUnmet_of_resolve hresolve)
  | ok generator =>
      simp only [hresolve, Run.bind_apply, ask, Run.pure_apply] at h ⊢
      cases hanswer : (generator.answer ⟨prompt,
          .of context systemPrompt model⟩ world).1 with
      | ok generation => simp [hanswer, Except.map] at h
      | error other =>
          obtain rfl : other = failure := by
            simpa [hanswer, Except.map] using h
          refine ⟨generator.name, ⟨prompt, .of context systemPrompt model⟩, ?_⟩
          simp

theorem StepTask.gives_of_execute {task : StepTask}
    {results : Json.Object} {world : σ} {failure : Failure}
    (h : (task.execute backends context results world).value = .error failure)
    (hreads : failure.ReadsUnmet) :
    backends.Gives failure
      (task.execute backends context results world).events := by
  cases task with
  | prompt request => exact .inl (Backends.answeredWith_of_generate h hreads)
  | tool call =>
      cases hresolved : call.resolved context.input results with
      | error other =>
          obtain rfl : other = failure := by
            simpa [execute, hresolved] using h
          exact absurd hreads (ToolTask.not_readsUnmet_of_resolved hresolved)
      | ok parameters =>
          simp only [execute, hresolved, Backends.callTool, Run.bind_apply,
            Run.pure_apply, List.append_nil] at h ⊢
          cases hanswer : (backends.tools.invoke call.tool parameters
              context.toolContext world).value with
          | ok value => simp [hanswer, Except.map] at h
          | error other =>
              obtain rfl : other = failure := by
                simpa [hanswer, Except.map] using h
              exact Backends.gives_of_invoke hanswer hreads
  | condition _ =>
      obtain rfl : .unsupportedStep _ = failure := by simpa [execute] using h
      exact absurd hreads (Failure.not_readsUnmet (by simp) (by simp))
  | loop _ =>
      obtain rfl : .unsupportedStep _ = failure := by simpa [execute] using h
      exact absurd hreads (Failure.not_readsUnmet (by simp) (by simp))
  | transform change => simp [execute] at h

theorem Step.gives_of_attempt {step : Step} {results : Json.Object}
    {retries left : Nat} {world : σ} {failure : Failure}
    (h : (step.attempt backends context results retries left world).value =
      .error failure)
    (hreads : failure.ReadsUnmet) :
    backends.Gives failure
      (step.attempt backends context results retries left world).events := by
  induction left generalizing world with
  | zero => exact StepTask.gives_of_execute h hreads
  | succ left ih =>
      cases hvalue : (step.task.execute backends context results world).value with
      | ok output =>
          rw [attempt_of_ok retries (left + 1) hvalue] at h ⊢
          exact StepTask.gives_of_execute h hreads
      | error other =>
          cases hagain : other.isRetryable with
          | false =>
              rw [attempt_of_final retries (left + 1) hvalue (.inr hagain)] at h ⊢
              exact StepTask.gives_of_execute h hreads
          | true =>
              rw [attempt_of_retry retries left hvalue hagain] at h ⊢
              refine (ih h).mono ?_
              intro event hmem
              exact List.mem_append_right _ (List.mem_cons_of_mem _ hmem)

/-- When no step on the way is refused, a run fails like the dependency check
only when the backends give that failure. -/
theorem Workflow.gives_of_runSteps {workflow : Workflow}
    {steps : List Step} {progress : Progress} {world : σ} {failure : Failure}
    (hmet : workflow.onError ≠ .carryOn → ∀ step rest later world',
      Reaches backends workflow context (.choosing steps progress world)
        (.choosing (step :: rest) later world') →
      step.unmet? later.results = none)
    (h : (workflow.runSteps backends context steps progress world).value.1 =
      .error failure)
    (hreads : failure.ReadsUnmet) :
    backends.Gives failure
      (workflow.runSteps backends context steps progress world).events := by
  induction steps generalizing progress world with
  | nil => simp [runSteps_nil] at h
  | cons step steps ih =>
      have hstep := reaches_step backends workflow context step steps progress
        world
      cases hvalue : (step.run backends workflow context progress.results
        world).value with
      | ok output =>
          simp only [hvalue, Stage.afterStep] at hstep
          rw [runSteps_of_ok hvalue] at h ⊢
          refine (ih ?_ h).mono ?_
          · intro honError next rest later world' hreach
            exact hmet honError next rest later world' (hstep.trans hreach)
          · intro event hmem
            exact List.mem_append_right _ (List.mem_cons_of_mem _ hmem)
      | error other =>
          by_cases honError : workflow.onError = .carryOn
          · rw [runSteps_of_skip hvalue honError] at h ⊢
            refine (ih (absurd honError) h).mono ?_
            intro event hmem
            exact List.mem_append_right _ (List.mem_cons_of_mem _ hmem)
          · rw [runSteps_of_abort hvalue honError] at h ⊢
            obtain rfl : other = failure := by simpa using h
            have hnone := hmet honError step steps progress world .refl
            simp only [Step.run, hnone] at hvalue ⊢
            exact Step.gives_of_attempt hvalue hreads

/-! ## An execution as a whole -/

theorem Skill.not_readsUnmet_of_refusal {skill : Skill} {levels : Nat}
    {id : String} {failure : Failure}
    (h : skill.refusal? levels id = some failure) : ¬failure.ReadsUnmet := by
  rw [refusal?] at h
  split at h
  · obtain rfl := Option.some.inj h
    exact Failure.not_readsUnmet (by simp) (by simp)
  · split at h
    · obtain rfl := Option.some.inj h
      exact Failure.not_readsUnmet (by simp) (by simp)
    · split at h
      · simp at h
      · obtain rfl := Option.some.inj h
        exact Failure.not_readsUnmet (by simp) (by simp)

/-- An execution of a workflow skill fails before it begins, and then not like
the dependency check, or hands over what the run of the steps leads to. -/
theorem executeWithin_workflow (backends : Backends σ) {skills : Dict Skill}
    {id : String} {skill : Skill} {workflow : Workflow}
    (hfind : skills.find? id = some skill)
    (hdefinition : skill.definition = .workflow workflow)
    (levels : Nat) (context : Context) (world : σ) :
    let ran := executeWithin backends skills levels id context world
    let stepped := workflow.runSteps backends (skill.prepared context)
      workflow.steps ⟨(skill.prepared context).state, []⟩ world
    (∃ failure : Failure, ¬failure.ReadsUnmet ∧
      ran.value.1.error = some failure.message ∧ ran.events = [] ∧
        ran.world = world) ∨
    ran = ⟨Skill.conclude context.state.tokensUsed
        (workflow.handOver (skill.prepared context) stepped.value),
      workflow.modeEvents ++ stepped.events, stepped.world⟩ := by
  cases hrefusal : skill.refusal? levels id with
  | some failure =>
      refine .inl ⟨failure, Skill.not_readsUnmet_of_refusal hrefusal, ?_⟩
      simp [executeWithin_of_refusal hfind hrefusal, SkillResult.failed]
  | none =>
      cases levels with
      | zero =>
          rw [Skill.refusal?] at hrefusal
          split at hrefusal <;> simp at hrefusal
      | succ levels =>
          rw [executeWithin_of_accepted hfind hrefusal]
          cases hgiven : (applyParameters skill.parameters context.input).1 with
          | error failure =>
              refine .inl ⟨failure, ?_, ?_⟩
              · obtain ⟨name, rfl⟩ := applyParameters_error hgiven
                exact Failure.not_readsUnmet (by simp) (by simp)
              · simp [Skill.run_of_missing hgiven, Skill.conclude]
          | ok _ =>
              right
              rw [Skill.run_of_given hgiven, hdefinition, Definition.run,
                Workflow.dispatch_apply]

/-- Unless the workflow carries on, a step that comes first is not refused. -/
theorem Workflow.Ordered.met_of_reaches {workflow : Workflow}
    (hordered : workflow.Ordered) {world : σ} {step : Step} {rest : List Step}
    {progress : Progress} {world' : σ}
    (hreach : Reaches backends workflow context (workflow.start context world)
      (.choosing (step :: rest) progress world'))
    (honError : workflow.onError ≠ .carryOn) :
    step.unmet? progress.results = none := by
  cases hunmet : step.unmet? progress.results with
  | none => rfl
  | some dependency =>
      obtain ⟨done, hsplit, hsettled⟩ := sound_of_reaches hordered hreach
      exact absurd (hsettled.of_unmet hordered hsplit hunmet).1 honError

theorem reported_of_executeWithin {skills : Dict Skill} {id : String}
    {skill : Skill} {workflow : Workflow}
    (hfind : skills.find? id = some skill)
    (hdefinition : skill.definition = .workflow workflow)
    {levels : Nat} {world : σ} {event : Event}
    (hmem : event ∈
      (executeWithin backends skills levels id context world).events)
    (hcall : event.IsCall) :
    Workflow.ReportedFrom backends workflow (skill.prepared context)
      (workflow.start (skill.prepared context) world) event := by
  rcases executeWithin_workflow backends hfind hdefinition levels context world
    with ⟨failure, -, -, hevents, -⟩ | hran
  · simp [hevents] at hmem
  · rw [hran] at hmem
    rcases List.mem_append.mp hmem with hmem | hmem
    · exact absurd hcall (Workflow.not_call_of_modeEvents hmem)
    · exact Workflow.reported_of_runSteps hmem hcall

theorem gives_of_executeWithin {skills : Dict Skill} {id : String}
    {skill : Skill} {workflow : Workflow}
    (hfind : skills.find? id = some skill)
    (hdefinition : skill.definition = .workflow workflow)
    (hordered : workflow.Ordered)
    {levels : Nat} {world : σ} {dependency : String}
    (herror : (executeWithin backends skills levels id context
      world).value.1.error =
        some (Failure.dependencyNotMet dependency).message) :
    ∃ failure : Failure,
      failure.message = (Failure.dependencyNotMet dependency).message ∧
        backends.Gives failure
          (executeWithin backends skills levels id context world).events := by
  rcases executeWithin_workflow backends hfind hdefinition levels context world
    with ⟨failure, hreads, hmessage, -, -⟩ | hran
  · rw [hmessage] at herror
    exact absurd ⟨dependency, Option.some.inj herror⟩ hreads
  rw [hran] at herror ⊢
  rcases hvalue : (workflow.runSteps backends (skill.prepared context)
      workflow.steps ⟨(skill.prepared context).state, []⟩ world).value with
    ⟨failure | _, progress⟩
  · have hmessage : failure.message =
        (Failure.dependencyNotMet dependency).message := by
      simpa [hvalue, Workflow.handOver, Skill.conclude] using herror
    refine ⟨failure, hmessage, ?_⟩
    have hgives := Workflow.gives_of_runSteps
      (fun honError _ _ _ _ hreach => hordered.met_of_reaches hreach honError)
      (congrArg Prod.fst hvalue) ⟨dependency, hmessage⟩
    exact hgives.mono (List.subset_append_right _ _)
  · simp [hvalue, Workflow.handOver, Skill.conclude] at herror

/-! ## Dependencies are respected -/

/-- What an execution owes to the dependencies of its workflow. -/
structure Workflow.Respected (backends : Backends σ) (workflow : Workflow)
    (tokensBefore : UInt64) (context : Context) (world : σ)
    (ran : Ran σ (SkillResult × Context)) : Prop where
  /-- The execution fails before it begins, or the moves lead to its end. -/
  concluded : ran.events = [] ∧ ran.world = world ∨
    ∃ outcome progress,
      Reaches backends workflow context (workflow.start context world)
        (.ended outcome progress ran.world) ∧
      ran.value = Skill.conclude tokensBefore
        (workflow.handOver context (outcome, progress))
  /-- At every moment the steps with a result are closed. -/
  closed : ∀ stage,
    Reaches backends workflow context (workflow.start context world) stage →
      workflow.Closed stage.progress.results
  /-- A step is tried only when all that it depends on has a result. -/
  tried : ∀ step left rest progress world',
    Reaches backends workflow context (workflow.start context world)
        (.trying step left rest progress world') →
      step ∈ workflow.steps ∧
        ∀ dependency ∈ step.dependsOn, progress.results.has dependency = true
  /-- Every call of a generator or tool is made while a step is tried. -/
  called : ∀ event ∈ ran.events, event.IsCall →
    ReportedFrom backends workflow context (workflow.start context world) event
  /-- Unless the workflow carries on, no step is refused. -/
  unrefused : workflow.onError ≠ .carryOn → ∀ step rest progress world',
    Reaches backends workflow context (workflow.start context world)
        (.choosing (step :: rest) progress world') →
      step.unmet? progress.results = none
  /-- The result reads like a refusal only when a generator answers so, or
  tools that are not those of a host. -/
  error : ∀ dependency,
    ran.value.1.error = some (Failure.dependencyNotMet dependency).message →
      ∃ failure,
        failure.message = (Failure.dependencyNotMet dependency).message ∧
          backends.Gives failure ran.events
  /-- A step is refused only after another, on which it depends directly or
  through others, failed in its own attempt. -/
  refused : ∀ step rest progress world' dependency,
    Reaches backends workflow context (workflow.start context world)
        (.choosing (step :: rest) progress world') →
      step.unmet? progress.results = some dependency →
      ∃ culprit,
        Relation.TransGen workflow.DependsOn step culprit ∧
          FailedBetween backends workflow context (workflow.start context world)
            (.choosing (step :: rest) progress world') culprit

/-- In every execution of a valid workflow skill the dependencies are
respected at every moment. -/
theorem executeWithin_respects_dependencies {skills : Dict Skill} {id : String}
    {skill : Skill} {workflow : Workflow}
    (hfind : skills.find? id = some skill)
    (hdefinition : skill.definition = .workflow workflow)
    (hvalid : skill.validate = [])
    (levels : Nat) (context : Context) (world : σ) :
    workflow.Respected backends context.state.tokensUsed
      (skill.prepared context) world
      (executeWithin backends skills levels id context world) := by
  have hordered : workflow.Ordered :=
    Skill.ordered_of_validate hdefinition hvalid
  constructor
  case concluded =>
    rcases executeWithin_workflow backends hfind hdefinition levels context
      world with ⟨failure, -, -, hevents, hworld⟩ | hran
    · exact .inl ⟨hevents, hworld⟩
    · refine .inr ⟨_, _, ?_, congrArg Ran.value hran⟩
      rw [congrArg Ran.world hran]
      exact Workflow.reaches_ended workflow.steps _ world
  case closed =>
    intro stage hreach
    exact (Workflow.sound_of_reaches hordered hreach).closed
  case tried =>
    intro step left rest progress world' hreach
    obtain ⟨⟨done, hsplit, -⟩, hdepends⟩ :=
      Workflow.sound_of_reaches hordered hreach
    exact ⟨by simp [hsplit], hdepends⟩
  case called =>
    intro event hmem hcall
    exact reported_of_executeWithin hfind hdefinition hmem hcall
  case unrefused =>
    intro honError step rest progress world' hreach
    exact hordered.met_of_reaches hreach honError
  case error =>
    intro dependency herror
    exact gives_of_executeWithin hfind hdefinition hordered herror
  case refused =>
    intro step rest progress world' dependency hreach hunmet
    obtain ⟨done, hsplit, hsettled⟩ :=
      Workflow.sound_of_reaches hordered hreach
    exact (hsettled.of_unmet hordered hsplit hunmet).2

/-- The blog post of the library, run with a generator that repeats. -/
theorem blogPost_respects_dependencies :
    let skill := SkillLibrary.blogPost.skill "post" "Post" "A post" .custom []
    let context : Context :=
      ⟨[("topic", .string "rain")], .empty, ⟨"mock", none⟩, .empty⟩
    let backends : Backends Scripted.World :=
      ⟨Router.empty.add (Scripted.echo "mock" 0), Host.empty.registry⟩
    skill.validate = [] ∧ ∃ workflow, skill.definition = .workflow workflow ∧
      workflow.Respected backends 0 (skill.prepared context) .empty
        (execute backends [("post", skill)] "post" context .empty) := by
  intro skill context backends
  have hvalid : skill.validate = [] := by decide
  have hfind : Dict.find? [("post", skill)] "post" = some skill := by rfl
  exact ⟨hvalid, _, rfl, executeWithin_respects_dependencies hfind rfl hvalid
    (maxDepth + 1) context Scripted.World.empty⟩

end SkillEngine
