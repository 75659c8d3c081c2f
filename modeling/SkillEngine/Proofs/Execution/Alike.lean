import SkillEngine.Proofs.Execution.Engine
import SkillEngine.Proofs.Execution.Hybrid
import SkillEngine.Proofs.Workflow.Execution

/-!
# Executions that do the same

Two executions of a skill are compared that begin in different worlds and in
contexts with different states.  `Run.Alike` says that two runs do the same as
far as it can be heard.  It is kept by the ways in which runs are put together,
so it goes from the backends through tasks, steps and workflows to skills along
the definitions.

Sub-skills begin with a fresh state, so the two executions call them in one
and the same context: the comparison of hybrids needs its own statement, for
equal contexts, one level deeper.  This is the induction on the levels.
-/

namespace SkillEngine

variable {σ α β γ δ : Type}

/-! ## Runs -/

namespace Run

/-- From worlds that are alike both runs report the same, of what is heard;
their values are related, and the worlds that they leave are alike again. -/
def Alike (heard : Event → Bool) (alike : σ → σ → Prop) (related : α → β → Prop)
    (first : Run σ α) (second : Run σ β) : Prop :=
  ∀ world other, alike world other →
    related (first world).value (second other).value ∧
      (first world).events.filter heard =
        (second other).events.filter heard ∧
      alike (first world).world (second other).world

variable {heard : Event → Bool} {alike : σ → σ → Prop}
  {related : α → β → Prop} {closer : γ → δ → Prop}

theorem alike_pure {value : α} {other : β} (h : related value other) :
    Alike heard alike related (pure value : Run σ α) (pure other : Run σ β) :=
  fun _ _ hworlds => ⟨h, rfl, hworlds⟩

theorem alike_emit (event : Event) :
    Alike heard alike Eq (emit event : Run σ Unit) (emit event) :=
  fun _ _ hworlds => ⟨rfl, rfl, hworlds⟩

theorem Alike.bind {first : Run σ α} {second : Run σ β}
    (hfirst : Alike heard alike related first second)
    {next : α → Run σ γ} {next' : β → Run σ δ}
    (hnext : ∀ value other, related value other →
      Alike heard alike closer (next value) (next' other)) :
    Alike heard alike closer (first >>= next) (second >>= next') := by
  intro world other hworlds
  obtain ⟨hvalues, hearly, hbetween⟩ := hfirst world other hworlds
  obtain ⟨hresults, hlate, hafter⟩ := hnext _ _ hvalues _ _ hbetween
  refine ⟨hresults, ?_, hafter⟩
  simp only [bind_apply, List.filter_append]
  rw [hearly, hlate]

end Run

/-! ## Backends -/

/-- In worlds that are alike generators and tools give the same answers, the
tools log the same of what is heard, and the worlds are alike again. -/
structure Backends.AnswersAlike (backends : Backends σ)
    (heard : Event → Bool) (alike : σ → σ → Prop) : Prop where
  generators : ∀ generator ∈ backends.router.generators,
    ∀ request world other, alike world other →
      (generator.answer request world).1 =
          (generator.answer request other).1 ∧
        alike (generator.answer request world).2
          (generator.answer request other).2
  tools : ∀ tool parameters context,
    Run.Alike heard alike Eq (backends.tools.invoke tool parameters context)
      (backends.tools.invoke tool parameters context)

theorem Backends.answersAlike_self (backends : Backends σ)
    (heard : Event → Bool) : backends.AnswersAlike heard Eq where
  generators := by
    rintro _ _ _ world _ rfl
    exact ⟨rfl, rfl⟩
  tools := by
    rintro _ _ _ world _ rfl
    exact ⟨rfl, rfl, rfl⟩

theorem Router.mem_of_resolve {router : Router σ} {provider : String}
    {generator : Generator σ} (h : router.resolve provider = .ok generator) :
    generator ∈ router.generators :=
  List.mem_of_find?_eq_some (resolve_eq_ok_iff.mp h)

/-- A host answers alike when the tools of its plugins do. -/
theorem Host.alike_invoke {host : Host σ} {heard : Event → Bool}
    {alike : σ → σ → Prop}
    (htools : ∀ plugin ∈ host.plugins.values, ∀ tool ∈ plugin.tools,
      ∀ parameters context world other, alike world other →
        let answer := tool.handle parameters context world
        let second := tool.handle parameters context other
        answer.value = second.value ∧
          (answer.log.map Event.logged).filter heard =
            (second.log.map Event.logged).filter heard ∧
          alike answer.world second.world)
    (tool : String) (parameters : Json.Object) (context : ToolContext) :
    Run.Alike heard alike Eq (host.invoke tool parameters context)
      (host.invoke tool parameters context) := by
  intro world other hworlds
  cases hlookup : host.lookup tool with
  | error refusal =>
      rw [invoke_of_refused hlookup, invoke_of_refused hlookup]
      exact ⟨rfl, rfl, hworlds⟩
  | ok found =>
      obtain ⟨plugin, hplugin, htool⟩ := mem_of_lookup hlookup
      obtain ⟨hvalue, hlog, hafter⟩ := htools plugin hplugin found htool
        parameters context world other hworlds
      rw [invoke_of_found hlookup, invoke_of_found hlookup]
      refine ⟨by rw [hvalue], ?_, hafter⟩
      rw [hvalue, List.filter_cons, List.filter_cons, hlog]

section Alike

variable {backends : Backends σ} {heard : Event → Bool} {alike : σ → σ → Prop}
  (hanswers : backends.AnswersAlike heard alike)

include hanswers

theorem Backends.AnswersAlike.ask {generator : Generator σ}
    (hgenerator : generator ∈ backends.router.generators)
    (request : GenerationRequest) :
    Run.Alike heard alike Eq (ask generator request)
      (ask generator request) := by
  intro world other hworlds
  obtain ⟨hanswer, hafter⟩ :=
    hanswers.generators generator hgenerator request world other hworlds
  exact ⟨hanswer, by simp only [Backends.ask, hanswer], hafter⟩

theorem Backends.AnswersAlike.generate (context : Context) (prompt : String)
    (systemPrompt : Option String) (model : Option ModelChoice) :
    Run.Alike heard alike Eq
      (backends.generate context prompt systemPrompt model)
      (backends.generate context prompt systemPrompt model) := by
  rw [Backends.generate]
  cases hresolve : backends.router.resolve
      ((model.bind (·.provider)).getD context.aiConfig.provider) with
  | error failure => exact Run.alike_pure rfl
  | ok generator =>
      apply (hanswers.ask (Router.mem_of_resolve hresolve) _).bind
      rintro answer _ rfl
      exact Run.alike_pure rfl

/-! ## Steps -/

theorem StepTask.alike_execute (task : StepTask) (context : Context)
    (results : Json.Object) :
    Run.Alike heard alike Eq (task.execute backends context results)
      (task.execute backends context results) := by
  cases task with
  | prompt request => exact hanswers.generate _ _ _ _
  | tool call =>
      rw [execute]
      cases call.resolved context.input results with
      | error failure => exact Run.alike_pure rfl
      | ok parameters =>
          apply (hanswers.tools call.tool parameters context.toolContext).bind
          rintro answer _ rfl
          exact Run.alike_pure rfl
  | transform change => exact Run.alike_pure rfl
  | condition _ => exact Run.alike_pure rfl
  | loop _ => exact Run.alike_pure rfl

theorem Step.alike_attempt (step : Step) (context : Context)
    (results : Json.Object) (retries left : Nat) :
    Run.Alike heard alike Eq
      (step.attempt backends context results retries left)
      (step.attempt backends context results retries left) := by
  induction left with
  | zero => exact StepTask.alike_execute hanswers step.task context results
  | succ left ih =>
      rw [attempt]
      apply (StepTask.alike_execute hanswers step.task context results).bind
      rintro answer _ rfl
      cases answer with
      | ok output => exact Run.alike_pure rfl
      | error failure =>
          dsimp only
          split
          · apply (Run.alike_emit _).bind
            intro _ _ _
            exact ih
          · exact Run.alike_pure rfl

theorem Step.alike_run (workflow : Workflow) (step : Step) (context : Context)
    (results : Json.Object) :
    Run.Alike heard alike Eq (step.run backends workflow context results)
      (step.run backends workflow context results) := by
  rw [run]
  cases step.unmet? results with
  | some dependency => exact Run.alike_pure rfl
  | none => exact Step.alike_attempt hanswers step context results _ _

end Alike

/-! ## Contexts that differ in their state -/

/-- The same context with another state. -/
def Context.withState (context : Context) (state : ExecutionState) : Context :=
  { context with state := state }

/-- The contexts differ in their states alone, which agree in the outputs of
steps; the tokens of the second are ahead by the offset. -/
structure Context.Twins (offset : UInt64) (first second : Context) : Prop where
  same : second = first.withState second.state
  stepOutputs : second.state.stepOutputs = first.state.stepOutputs
  tokensUsed : second.state.tokensUsed = first.state.tokensUsed + offset

theorem Context.Twins.withStates {offset : UInt64} {first second : Context}
    (h : Context.Twins offset first second) {state ahead : ExecutionState}
    (houtputs : ahead.stepOutputs = state.stepOutputs)
    (htokens : ahead.tokensUsed = state.tokensUsed + offset) :
    Context.Twins offset (first.withState state) (second.withState ahead) := by
  refine ⟨?_, houtputs, htokens⟩
  rw [h.same]
  rfl

/-- Equal outcomes in contexts that differ in their states. -/
def Paired (offset : UInt64) (first second : α × Context) : Prop :=
  first.1 = second.1 ∧ Context.Twins offset first.2 second.2

theorem StepTask.execute_withState (backends : Backends σ) (task : StepTask)
    (context : Context) (state : ExecutionState) (results : Json.Object) :
    task.execute backends (context.withState state) results =
      task.execute backends context results := by
  cases task <;> rfl

theorem Step.run_withState (backends : Backends σ) (workflow : Workflow)
    (step : Step) (context : Context) (state : ExecutionState)
    (results : Json.Object) :
    step.run backends workflow (context.withState state) results =
      step.run backends workflow context results := by
  have hattempt : ∀ retries left,
      step.attempt backends (context.withState state) results retries left =
        step.attempt backends context results retries left := by
    intro retries left
    induction left with
    | zero => exact step.task.execute_withState backends context state results
    | succ left ih =>
        rw [attempt, attempt, step.task.execute_withState, ih]
  rw [run, run, hattempt]

section Definitions

variable {backends : Backends σ} {heard : Event → Bool} {alike : σ → σ → Prop}
  (hanswers : backends.AnswersAlike heard alike) {offset : UInt64}
  {first second : Context}

/-- How far two runs of a workflow have come. -/
def Abreast (offset : UInt64)
    (first second : Except Failure Unit × Progress) : Prop :=
  first.1 = second.1 ∧ first.2.results = second.2.results ∧
    second.2.state.tokensUsed = first.2.state.tokensUsed + offset

theorem Workflow.paired_handOver (workflow : Workflow)
    (htwins : Context.Twins offset first second)
    {reached ahead : Except Failure Unit × Progress}
    (h : Abreast offset reached ahead) :
    Paired offset (workflow.handOver first reached)
      (workflow.handOver second ahead) := by
  obtain ⟨outcome, progress⟩ := reached
  obtain ⟨_, ahead⟩ := ahead
  obtain ⟨rfl, hresults, htokens⟩ := h
  cases outcome with
  | ok _ =>
      refine ⟨?_, htwins.withStates rfl htokens⟩
      simp only [handOver]
      rw [hresults]
  | error failure => exact ⟨rfl, htwins.withStates hresults.symm htokens⟩

section Asking

include hanswers

theorem Prompt.alike_run (prompt : Prompt)
    (htwins : Context.Twins offset first second) :
    Run.Alike heard alike (Paired offset) (prompt.run backends first)
      (prompt.run backends second) := by
  have hgenerate : backends.generate second
      (Template.fill prompt.template second.input) prompt.systemPrompt
        prompt.model =
      backends.generate first (Template.fill prompt.template first.input)
        prompt.systemPrompt prompt.model := by
    rw [htwins.same]
    rfl
  rw [run, run, hgenerate]
  apply (hanswers.generate first _ _ _).bind
  rintro answer _ rfl
  cases answer with
  | error failure => exact Run.alike_pure ⟨rfl, htwins⟩
  | ok output =>
      refine Run.alike_pure ⟨rfl, htwins.withStates htwins.stepOutputs ?_⟩
      rw [htwins.tokensUsed]
      ac_rfl

theorem ToolUse.alike_run (use : ToolUse)
    (htwins : Context.Twins offset first second) :
    Run.Alike heard alike (Paired offset) (use.run backends first)
      (use.run backends second) := by
  have hcall : backends.callTool second use.tool
      (Reference.resolveAll use.mapping second.input []) =
      backends.callTool first use.tool
        (Reference.resolveAll use.mapping first.input []) := by
    rw [htwins.same]
    rfl
  rw [run, run, hcall]
  apply (hanswers.tools use.tool _ first.toolContext).bind
  rintro answer _ rfl
  exact Run.alike_pure ⟨rfl, htwins⟩

theorem Workflow.alike_runSteps (workflow : Workflow) (context : Context)
    (state : ExecutionState) (steps : List Step) (progress ahead : Progress)
    (hresults : progress.results = ahead.results)
    (htokens : ahead.state.tokensUsed =
      progress.state.tokensUsed + offset) :
    Run.Alike heard alike (Abreast offset)
      (workflow.runSteps backends context steps progress)
      (workflow.runSteps backends (context.withState state) steps ahead) := by
  induction steps generalizing progress ahead with
  | nil => exact Run.alike_pure ⟨rfl, hresults, htokens⟩
  | cons step steps ih =>
      have hstep := Step.alike_run hanswers workflow step context
        progress.results
      rw [runSteps, runSteps, Step.run_withState]
      simp only [Progress.begin, ← hresults]
      apply hstep.bind
      rintro answer _ rfl
      cases answer with
      | ok output =>
          apply (Run.alike_emit _).bind
          intro _ _ _
          apply ih
          · rfl
          · simp only [Progress.complete, htokens]
            ac_rfl
      | error failure =>
          dsimp only
          split
          · apply (Run.alike_emit _).bind
            intro _ _ _
            exact ih _ _ rfl htokens
          · exact Run.alike_pure ⟨rfl, rfl, htokens⟩

theorem Workflow.alike_dispatch (workflow : Workflow)
    (htwins : Context.Twins offset first second) :
    Run.Alike heard alike (Paired offset) (workflow.dispatch backends first)
      (workflow.dispatch backends second) := by
  intro world other hworlds
  obtain ⟨hreached, hevents, hafter⟩ := alike_runSteps hanswers workflow first
    second.state workflow.steps ⟨first.state, []⟩ ⟨second.state, []⟩ rfl
    htwins.tokensUsed world other hworlds
  rw [← htwins.same] at hreached hevents hafter
  rw [dispatch_apply, dispatch_apply]
  refine ⟨paired_handOver workflow htwins hreached, ?_, hafter⟩
  rw [List.filter_append, List.filter_append, hevents]

end Asking

/-- Skills that run in one context come to one result, whatever the worlds, as
long as these are alike. -/
def RunsAlike (heard : Event → Bool) (alike : σ → σ → Prop)
    (runSkill : Hybrid.Runner σ) : Prop :=
  ∀ id context, Run.Alike heard alike (fun first second => first.1 = second.1)
    (runSkill id context) (runSkill id context)

theorem Hybrid.alike_runEntries {runSkill : Hybrid.Runner σ}
    (hrunner : RunsAlike heard alike runSkill) (total position : Nat)
    (entries : List SubSkill) (htwins : Context.Twins offset first second) :
    Run.Alike heard alike (Paired offset)
      (runEntries runSkill total position entries first)
      (runEntries runSkill total position entries second) := by
  induction entries generalizing position first second with
  | nil => exact Run.alike_pure ⟨rfl, htwins⟩
  | cons entry entries ih =>
      have hchild : second.fork (entry.input second.input) =
          first.fork (entry.input first.input) := by
        rw [htwins.same]
        rfl
      rw [runEntries, runEntries, hchild]
      apply (Run.alike_emit _).bind
      intro _ _ _
      apply (hrunner entry.skill _).bind
      rintro ⟨result, _⟩ ⟨_, _⟩ rfl
      dsimp only
      have htokens : second.state.tokensUsed + result.tokensUsed =
          first.state.tokensUsed + result.tokensUsed + offset := by
        rw [htwins.tokensUsed]
        ac_rfl
      split
      · have hbehind : Context.Twins offset (first.behind entry result)
            (second.behind entry result) :=
          htwins.withStates htwins.stepOutputs htokens
        apply (ih (position + 1) hbehind).bind
        rintro ⟨outputs, reached⟩ ⟨_, ahead⟩ ⟨rfl, hlater⟩
        exact Run.alike_pure ⟨rfl, hlater⟩
      · exact Run.alike_pure ⟨rfl, htwins.withStates htwins.stepOutputs htokens⟩

theorem Hybrid.paired_handOver (hybrid : Hybrid)
    {reached ahead : Except Failure (List Json) × Context}
    (h : Paired offset reached ahead) :
    Paired offset (hybrid.handOver reached) (hybrid.handOver ahead) := by
  obtain ⟨outcome, reached⟩ := reached
  obtain ⟨_, ahead⟩ := ahead
  obtain ⟨rfl, htwins⟩ := h
  cases outcome with
  | ok outputs =>
      exact ⟨rfl, htwins.withStates htwins.stepOutputs htwins.tokensUsed⟩
  | error failure => exact ⟨rfl, htwins⟩

theorem Hybrid.alike_dispatch {runSkill : Hybrid.Runner σ}
    (hrunner : RunsAlike heard alike runSkill) (hybrid : Hybrid)
    (htwins : Context.Twins offset first second) :
    Run.Alike heard alike (Paired offset) (hybrid.dispatch runSkill first)
      (hybrid.dispatch runSkill second) := by
  intro world other hworlds
  obtain ⟨hreached, hevents, hafter⟩ := alike_runEntries hrunner
    hybrid.skills.length 0 hybrid.skills htwins world other hworlds
  rw [dispatch_apply, dispatch_apply]
  refine ⟨paired_handOver hybrid hreached, ?_, hafter⟩
  rw [List.filter_append, List.filter_append, hevents]

include hanswers

theorem Definition.alike_run {runSkill : Hybrid.Runner σ}
    (hrunner : RunsAlike heard alike runSkill) (definition : Definition)
    (htwins : Context.Twins offset first second) :
    Run.Alike heard alike (Paired offset)
      (definition.run backends runSkill first)
      (definition.run backends runSkill second) := by
  cases definition with
  | prompt value => exact value.alike_run hanswers htwins
  | workflow value => exact value.alike_dispatch hanswers htwins
  | tool value => exact value.alike_run hanswers htwins
  | hybrid value => exact value.alike_dispatch hrunner htwins

end Definitions

/-! ## Executions -/

/-- The result without the figure for the tokens. -/
def SkillResult.uncounted (result : SkillResult) : SkillResult :=
  { result with
    details := result.details.map fun details =>
      { details with tokensUsed := none } }

/-- How two executions end that began with the given counts of tokens: with the
same result, if the same figure is shown for the tokens. -/
structure EndsAlike (before ahead : UInt64)
    (first second : SkillResult × Context) : Prop where
  uncounted : first.1.uncounted = second.1.uncounted
  counted : Skill.shownTokens before first.2.state.tokensUsed =
      Skill.shownTokens ahead second.2.state.tokensUsed →
    first.1 = second.1
  tokensUsed : second.2.state.tokensUsed =
    first.2.state.tokensUsed + (ahead - before)

/-- Where the counts begin alike, they cannot differ afterwards. -/
theorem EndsAlike.result_eq {before : UInt64}
    {first second : SkillResult × Context}
    (h : EndsAlike before before first second) : first.1 = second.1 := by
  have hcount := h.tokensUsed
  rw [UInt64.sub_self, UInt64.add_zero] at hcount
  apply h.counted
  rw [hcount]

theorem Skill.endsAlike_conclude {before ahead : UInt64}
    {first second : Except Failure Dispatched × Context}
    (h : Paired (ahead - before) first second) :
    EndsAlike before ahead (conclude before first) (conclude ahead second) := by
  obtain ⟨outcome, reached⟩ := first
  obtain ⟨_, other⟩ := second
  obtain ⟨rfl, htwins⟩ := h
  have houtputs : other.state.stepOutputs = reached.state.stepOutputs :=
    htwins.stepOutputs
  cases outcome with
  | ok done =>
      refine ⟨rfl, ?_, htwins.tokensUsed⟩
      intro hshown
      have hshown : shownTokens before reached.state.tokensUsed =
          shownTokens ahead other.state.tokensUsed := hshown
      simp only [conclude, hshown]
  | error failure =>
      refine ⟨?_, ?_, htwins.tokensUsed⟩
      · simp only [conclude, houtputs]
        rfl
      · intro hshown
        have hshown : shownTokens before reached.state.tokensUsed =
            shownTokens ahead other.state.tokensUsed := hshown
        simp only [conclude, hshown, houtputs]

/-- With its defaults filled in, the skill begins with the same. -/
structure Skill.StartsAlike (skill : Skill) (first second : Context) :
    Prop where
  given : applyParameters skill.parameters first.input =
    applyParameters skill.parameters second.input
  environment : first.environment = second.environment
  aiConfig : first.aiConfig = second.aiConfig

theorem Skill.StartsAlike.twins {skill : Skill} {first second : Context}
    (h : skill.StartsAlike first second) :
    Context.Twins (second.state.tokensUsed - first.state.tokensUsed)
      (skill.prepared first) (skill.prepared second) := by
  refine ⟨?_, rfl, ?_⟩
  · simp only [prepared, Context.withOutputs, Context.withState, h.given,
      h.environment, h.aiConfig]
  · simp only [prepared, Context.withOutputs]
    rw [UInt64.add_comm, UInt64.sub_add_cancel]

section Executions

variable {backends : Backends σ} {heard : Event → Bool} {alike : σ → σ → Prop}
  (hanswers : backends.AnswersAlike heard alike) {first second : Context}

include hanswers

theorem Skill.alike_run {runSkill : Hybrid.Runner σ}
    (hrunner : RunsAlike heard alike runSkill) {skill : Skill}
    (hstart : skill.StartsAlike first second) :
    Run.Alike heard alike
      (EndsAlike first.state.tokensUsed second.state.tokensUsed)
      (skill.run backends runSkill first)
      (skill.run backends runSkill second) := by
  intro world other hworlds
  cases hgiven : (applyParameters skill.parameters first.input).1 with
  | error failure =>
      have hgiven' := hgiven
      rw [hstart.given] at hgiven'
      have hpaired : Paired
          (second.state.tokensUsed - first.state.tokensUsed)
          ((.error failure : Except Failure Dispatched), skill.prepared first)
          (.error failure, skill.prepared second) := ⟨rfl, hstart.twins⟩
      rw [run_of_missing hgiven, run_of_missing hgiven']
      exact ⟨endsAlike_conclude hpaired, rfl, hworlds⟩
  | ok _ =>
      have hgiven' := hgiven
      rw [hstart.given] at hgiven'
      obtain ⟨hpaired, hevents, hafter⟩ := skill.definition.alike_run hanswers
        hrunner hstart.twins world other hworlds
      rw [run_of_given hgiven, run_of_given hgiven']
      exact ⟨endsAlike_conclude hpaired, hevents, hafter⟩

theorem alike_executeWithin (skills : Dict Skill) (levels : Nat) {id : String}
    (hstart : ∀ skill, skills.find? id = some skill →
      skill.StartsAlike first second) :
    Run.Alike heard alike
      (EndsAlike first.state.tokensUsed second.state.tokensUsed)
      (executeWithin backends skills levels id first)
      (executeWithin backends skills levels id second) := by
  induction levels using Nat.strong_induction_on
    generalizing id first second with
  | _ levels ih =>
    rcases executeWithin_eq backends skills levels id with
      ⟨failure, -, hrefused⟩ | ⟨skill, left, hfind, hlevels, -, hruns⟩
    · rw [hrefused, hrefused]
      apply Run.alike_pure
      refine ⟨rfl, fun _ => rfl, ?_⟩
      rw [UInt64.add_comm, UInt64.sub_add_cancel]
    · rw [hruns, hruns]
      apply Skill.alike_run hanswers ?_ (hstart skill hfind)
      -- Sub-skills are called in one context, with one count.
      intro id context world other hworlds
      obtain ⟨hends, hevents, hafter⟩ := ih left (by omega)
        (fun _ _ => ⟨rfl, rfl, rfl⟩) world other hworlds
      exact ⟨hends.result_eq, hevents, hafter⟩

end Executions

end SkillEngine
