import SkillEngine.Proofs.Generator.Router
import SkillEngine.Proofs.Tool.Registry
import SkillEngine.Proofs.Workflow.Retries
import SkillEngine.Proofs.Workflow.Stage

/-!
# Failures before anything is asked

A task can fail before it asks a generator or a tool.  Then nothing but the
task, the input and the results has been looked at, and every other attempt
fails in the same way.  It does so in every world, unless a registry of tools
looks at the world before it refuses a call; a host goes by the name alone.

Whether a failure is worth another attempt is read off its constructor.  A
kind of step that is not supported, a generator or tool that is not there and
a plugin that is switched off are told by their failures.  Parameters that are
no object are not: they are reported like the failure of a tool that was
called.  So of the failures in question exactly these are retried, each time in
vain.
-/

namespace SkillEngine

variable {σ : Type} {backends : Backends σ} {context : Context}
  {results : Json.Object} {failure : Failure}

/-! ## What fails before anything is asked -/

theorem Router.not_isRetryable_of_resolve {router : Router σ}
    {provider : String} (h : router.resolve provider = .error failure) :
    failure.isRetryable = false := by
  obtain rfl := failure_of_resolve h
  rfl

/-- No refusal is worth another attempt. -/
theorem Refusal.isRetryable_failure (refusal : Refusal) :
    refusal.failure.isRetryable = false := by
  cases refusal with
  | toolNotFound tool => rfl
  | pluginNotEnabled plugin => rfl

/-- When no tool is called, the call was refused. -/
theorem ToolRegistry.exists_refusal_of_unasked {registry : ToolRegistry σ}
    {tool : String} {parameters : Json.Object} {toolContext : ToolContext}
    {world : σ}
    (h : ∀ event ∈ (registry.invoke tool parameters toolContext world).events,
      ¬event.IsCall) :
    ∃ refusal, registry.call tool parameters toolContext world =
      .refused refusal := by
  cases hcall : registry.call tool parameters toolContext world with
  | refused refusal => exact ⟨refusal, rfl⟩
  | answered answer passed =>
      rw [invoke_of_answered hcall] at h
      exact absurd trivial (h _ List.mem_cons_self)

/-- What the registry refuses in one world it refuses in the other. -/
def ToolRegistry.RefusesAgain (registry : ToolRegistry σ) (world other : σ) :
    Prop :=
  ∀ tool parameters context refusal,
    registry.call tool parameters context world = .refused refusal →
      registry.call tool parameters context other = .refused refusal

/-- A host refuses by the name alone. -/
theorem Host.refusesAgain (host : Host σ) (world other : σ) :
    host.registry.RefusesAgain world other := by
  intro tool parameters context refusal hrefused
  cases hlookup : host.lookup tool with
  | error found =>
      rw [call_of_refused hlookup] at hrefused ⊢
      exact hrefused
  | ok found => simp [call_of_found hlookup] at hrefused

/-- When no generator is asked, there was none. -/
theorem Backends.exists_failure_of_unasked {prompt : String}
    {systemPrompt : Option String} {model : Option ModelChoice} {world : σ}
    (h : ∀ event ∈
      (backends.generate context prompt systemPrompt model world).events,
      ¬event.IsCall) :
    ∃ failure, backends.router.resolve
        ((model.bind (·.provider)).getD context.aiConfig.provider) =
      .error failure := by
  unfold generate at h
  cases hresolve : backends.router.resolve
      ((model.bind (·.provider)).getD context.aiConfig.provider) with
  | error failure => exact ⟨failure, rfl⟩
  | ok generator =>
      rw [hresolve] at h
      exact absurd trivial (h _ List.mem_cons_self)

namespace StepTask

/-- The task would call a tool, but has no object of parameters for it. -/
def lacksParameters (task : StepTask) (input results : Json.Object) : Bool :=
  match task with
  | .tool call => !(call.resolved input results).isOk
  | .prompt _ | .condition _ | .loop _ | .transform _ => false

/-- The task fails, and has asked neither a generator nor a tool. -/
structure FailsUnasked (backends : Backends σ) (task : StepTask)
    (context : Context) (results : Json.Object) (world : σ)
    (failure : Failure) : Prop where
  value : (task.execute backends context results world).value = .error failure
  unasked : ∀ event ∈ (task.execute backends context results world).events,
    ¬event.IsCall

variable {task : StepTask} {world : σ}

/-- A task without an object of parameters is one of them. -/
theorem failsUnasked_tool {call : ToolTask} (world : σ)
    (h : call.resolved context.input results = .error failure) :
    (StepTask.tool call).FailsUnasked backends context results world failure :=
  ⟨by simp [execute, h], by simp [execute, h]⟩

/-- Such a failure is the same in every world in which the registry refuses the
same, and worth another attempt by its kind exactly when it is about
parameters. -/
theorem FailsUnasked.everywhere
    (h : FailsUnasked backends task context results world failure) :
    (∀ other, backends.tools.RefusesAgain world other →
      task.execute backends context results other =
        ⟨.error failure, [], other⟩) ∧
    failure.isRetryable = task.lacksParameters context.input results := by
  obtain ⟨hvalue, hunasked⟩ := h
  cases task with
  | prompt request =>
      obtain ⟨refused, hresolve⟩ := Backends.exists_failure_of_unasked hunasked
      obtain rfl : refused = failure := by
        simpa [execute, Backends.generate, hresolve] using hvalue
      refine ⟨fun other _ => ?_, Router.not_isRetryable_of_resolve hresolve⟩
      simp [execute, Backends.generate, hresolve]
  | tool call =>
      cases hresolved : call.resolved context.input results with
      | error fault =>
          obtain rfl : fault = failure := by
            simpa [execute, hresolved] using hvalue
          constructor
          · intro other _
            simp [execute, hresolved]
          · rw [call.eq_parametersFault hresolved, lacksParameters, hresolved]
            rfl
      | ok parameters =>
          simp only [execute, hresolved, Backends.callTool, Run.bind_apply,
            Run.pure_apply, List.append_nil] at hvalue hunasked ⊢
          obtain ⟨refusal, hcall⟩ :=
            ToolRegistry.exists_refusal_of_unasked hunasked
          obtain rfl : refusal.failure = failure := by
            simpa [ToolRegistry.invoke_of_refused hcall, Except.map]
              using hvalue
          constructor
          · intro other hagain
            have hrefused := hagain _ _ _ _ hcall
            simp [ToolRegistry.invoke_of_refused hrefused, Except.map]
          · rw [refusal.isRetryable_failure, lacksParameters, hresolved]
            rfl
  | transform change => simp [execute] at hvalue
  | condition _ =>
      obtain rfl : .unsupportedStep _ = failure := by
        simpa [execute] using hvalue
      exact ⟨fun _ _ => rfl, rfl⟩
  | loop _ =>
      obtain rfl : .unsupportedStep _ = failure := by
        simpa [execute] using hvalue
      exact ⟨fun _ _ => rfl, rfl⟩

end StepTask

/-! ## Trying again -/

namespace Step

variable {step : Step} {workflow : Workflow} {world : σ}

/-- The log lines in front of as many retries as there are. -/
def retryLines (step : Step) (failure : Failure) (retries : Nat) : List Event :=
  (List.range' 1 retries).map fun number =>
    .logged ⟨.warn, step.retryText failure number retries⟩

section Here

variable (hhere : step.task.execute backends context results world =
  ⟨.error failure, [], world⟩)

include hhere

theorem tries_of_fails (number : Nat) :
    step.tries backends context results world number =
      ⟨.error failure, [], world⟩ := by
  induction number with
  | zero => exact hhere
  | succ number ih => rw [tries, ih, hhere]

theorem trail_of_fails (retries before count : Nat) :
    step.trail backends context results world retries before
        (List.replicate count failure) =
      (List.range' (before + 1) count).map fun number =>
        .logged ⟨.warn, step.retryText failure number retries⟩ := by
  induction count generalizing before with
  | zero => rfl
  | succ count ih =>
      rw [List.replicate_succ, trail_cons, tries_of_fails hhere, ih]
      rfl

end Here

/-- How a step is run that fails before anything is asked. -/
structure FailsInVain (backends : Backends σ) (workflow : Workflow)
    (step : Step) (context : Context) (results : Json.Object) (world : σ)
    (failure : Failure) (ran : Ran σ (Except Failure StepOutput)) : Prop where
  /-- Every attempt fails in this way, and does nothing, in this world and in
  every other in which the registry refuses the same. -/
  everywhere : ∀ other, backends.tools.RefusesAgain world other →
    step.task.execute backends context results other =
      ⟨.error failure, [], other⟩
  /-- With the tools of a host, in every world. -/
  hosted : ∀ host : Host σ, backends.tools = host.registry →
    ∀ other, step.task.execute backends context results other =
      ⟨.error failure, [], other⟩
  value : ran.value = .error failure
  leaves : ran.world = world
  /-- There is one attempt, unless the parameters are at fault. -/
  once : step.task.lacksParameters context.input results = false →
    Repeats backends step context results world workflow.retries 0 [] ran ∧
      ran.events = []
  /-- When they are, the step is tried again as long as there are retries. -/
  again : step.task.lacksParameters context.input results = true →
    Repeats backends step context results world workflow.retries 0
      (List.replicate workflow.retries failure) ran ∧
      ran.events = step.retryLines failure workflow.retries

/-- A step that fails before it asks a generator or a tool fails with that in
every run, and is tried again exactly when it has no object of parameters. -/
theorem run_of_failsUnasked
    (hmet : ∀ dependency ∈ step.dependsOn, results.has dependency = true)
    (hfails : step.task.FailsUnasked backends context results world failure) :
    FailsInVain backends workflow step context results world failure
      (step.run backends workflow context results world) := by
  obtain ⟨heverywhere, hretryable⟩ := hfails.everywhere
  have hhere := heverywhere world fun _ _ _ _ hrefused => hrefused
  have htries : ∀ number,
      step.tries backends context results world number =
        ⟨.error failure, [], world⟩ := tries_of_fails hhere
  have hrun : step.run backends workflow context results world =
      step.attempt backends context results workflow.retries workflow.retries
        world := by
    simp only [run, unmet?_eq_none.mpr hmet]
  obtain ⟨failures, hrepeats, -, hasked, hended⟩ :=
    exists_repeats backends step context results (le_refl workflow.retries)
      world
  rw [Nat.sub_self, ← hrun] at hrepeats
  have hsame : ∀ other ∈ failures, other = failure := by
    intro other hmem
    obtain ⟨number, hget⟩ := List.mem_iff_getElem?.mp hmem
    have hfailed := hrepeats.failed number other hget
    rw [htries] at hfailed
    exact (Except.error.inj hfailed).symm
  have hevents := hrepeats.events
  rw [htries, List.append_nil] at hevents
  constructor
  case everywhere => exact heverywhere
  case hosted =>
    intro host hhost other
    refine heverywhere other ?_
    rw [hhost]
    exact host.refusesAgain world other
  case value => rw [hrepeats.value, htries]
  case leaves => rw [hrepeats.leaves, htries]
  case once =>
    intro hfine
    obtain rfl : failures = [] := by
      rw [List.eq_nil_iff_forall_not_mem]
      intro other hmem
      have hother := hasked other hmem
      rw [hsame other hmem, hretryable, hfine] at hother
      contradiction
    exact ⟨hrepeats, hevents⟩
  case again =>
    intro hlacks
    have hall : failures.length = workflow.retries := by
      refine hended.resolve_right fun hother => hother ?_
      rw [htries]
      exact ⟨failure, rfl, hretryable.trans hlacks⟩
    obtain rfl : failures = List.replicate workflow.retries failure :=
      List.eq_replicate_iff.mpr ⟨hall, hsame⟩
    refine ⟨hrepeats, ?_⟩
    rw [hevents, trail_of_fails hhere]
    rfl

/-- A step whose parameters refer to nothing, in a workflow that does not say
how often it retries. -/
theorem unresolved_failsInVain :
    let step : Step := ⟨"count", "Count", none, .tool,
      .tool ⟨"text_stats", .string "$args"⟩, [], none⟩
    let workflow : Workflow := ⟨[step], [], [], .sequential, .retry, none⟩
    let context : Context := ⟨[], .empty, ⟨"mock", none⟩, .empty⟩
    let backends : Backends Unit := ⟨.empty, Host.empty.registry⟩
    let failure : Failure := .toolExecution "text_stats"
      "parameters reference $args is not an object"
    step.task.FailsUnasked backends context [] () failure ∧
      step.task.lacksParameters [] [] = true ∧
      FailsInVain backends workflow step context [] () failure
        (step.run backends workflow context [] ()) := by
  intro step workflow context backends failure
  have hfails : step.task.FailsUnasked backends context [] () failure :=
    StepTask.failsUnasked_tool () rfl
  exact ⟨hfails, rfl, run_of_failsUnasked (by simp [step]) hfails⟩

/-- A step whose parameters refer to nothing is tried again, although nothing
was asked. -/
theorem unresolved_retried :
    let step : Step := ⟨"count", "Count", none, .tool,
      .tool ⟨"text_stats", .string "$args"⟩, [], none⟩
    let workflow : Workflow := ⟨[step], [], [], .sequential, .retry, some 1⟩
    let context : Context := ⟨[], .empty, ⟨"mock", none⟩, .empty⟩
    let backends : Backends Unit := ⟨.empty, Host.empty.registry⟩
    let failure : Failure := .toolExecution "text_stats"
      "parameters reference $args is not an object"
    step.task.FailsUnasked backends context [] () failure ∧
      (step.run backends workflow context [] ()).events = [.logged ⟨.warn,
        "step count failed (tool execution failed: text_stats: parameters " ++
          "reference $args is not an object), retry 1/1"⟩] := by
  intro step workflow context backends failure
  have hline : step.retryText failure 1 1 =
      "step count failed (tool execution failed: text_stats: parameters " ++
        "reference $args is not an object), retry 1/1" := by
    decide
  refine ⟨StepTask.failsUnasked_tool () rfl, ?_⟩
  rw [← hline]
  rfl

end Step

end SkillEngine
