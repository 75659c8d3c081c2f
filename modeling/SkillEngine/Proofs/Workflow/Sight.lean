import SkillEngine.Proofs.Reference
import SkillEngine.Proofs.Workflow.Foresight

/-!
# What a step sees of earlier outputs

In a run of a workflow the results grow by the output of one step at a time,
and each step that is behind has an id of its own.  So at every moment the
results hold the outputs of the steps that have ended with one, each under the
id of its step, and nothing else; no output is put in place of another.

Whatever else the input holds, a prompt therefore shows such an output where
the slot of the id stands.  A reference to the id denotes the same output as
long as the input has no value for it.
-/

namespace SkillEngine

variable {σ : Type} {backends : Backends σ} {workflow : Workflow}
  {context : Context}

/-! ## One attempt -/

namespace StepTask

/-- What an attempt at a task makes of a name that has a value among the
results. -/
structure Sees (task : StepTask) (context : Context) (results : Json.Object)
    (name : String) (value : Json) (ran : Ran σ (Except Failure StepOutput)) :
    Prop where
  /-- A generator is asked with a prompt that has the text of the value
  wherever the template has the slot of the name. -/
  prompt : ∀ request, task = .prompt request →
    Template.IsSlotName name.toList →
    ∀ generator asked answer, .generated generator asked answer ∈ ran.events →
    ∀ before after,
      request.template.toList =
        before ++ Template.slotText name.toList ++ after →
      let data := mergedInput context.input results
      asked.prompt.toList = Template.fillChars before data ++ value.form ++
        Template.fillChars after data
  /-- A tool is given the value for every parameter that refers to the name,
  or as its parameters if all of them are a reference to it. -/
  tool : ∀ call, task = .tool call → context.input.has name = false →
    ∀ tool (given : Json.Object) answer,
      .invoked tool given answer ∈ ran.events →
      (∀ (mapping : Json.Object) (parameter : String),
        call.parameters = .object mapping →
        mapping.find? parameter = some (Reference.mark name) →
          given.find? parameter = some value) ∧
      (call.parameters = Reference.mark name → value = .object given)
  /-- A transform whose input refers to the name is applied to the value. -/
  transform : ∀ change, task = .transform change →
    context.input.has name = false →
    change.input = Reference.mark name →
      ran.value = .ok (.free (Transform.apply change.transform value))

variable {results : Json.Object} {world : σ}

theorem prompt_of_generated {request : PromptTask} {generator : String}
    {asked : GenerationRequest} {answer : Except Failure Generation}
    (h : .generated generator asked answer ∈
      ((StepTask.prompt request).execute backends context results
        world).events) :
    asked.prompt =
      Template.fill request.template (mergedInput context.input results) := by
  rw [execute, Backends.generate] at h
  cases hresolve : backends.router.resolve
      ((request.model.bind (·.provider)).getD context.aiConfig.provider) with
  | error failure => simp [hresolve] at h
  | ok found =>
      simp only [hresolve, Run.bind_apply, Backends.ask, Run.pure_apply,
        List.append_nil, List.mem_singleton, Event.generated.injEq] at h
      rw [h.2.1]

theorem resolved_of_invoked {call : ToolTask} {tool : String}
    {given : Json.Object} {answer : Except Failure Json}
    (h : .invoked tool given answer ∈
      ((StepTask.tool call).execute backends context results world).events) :
    call.resolved context.input results = .ok given := by
  cases hresolved : call.resolved context.input results with
  | error failure => simp [execute, hresolved] at h
  | ok parameters =>
      simp only [execute, hresolved, Backends.callTool, Run.bind_apply,
        Run.pure_apply, List.append_nil] at h
      rcases backends.tools.invoke_cases call.tool parameters
        context.toolContext world with
        ⟨refusal, hran⟩ | ⟨own, passed, log, after, hran⟩
      · simp [hran] at h
      · obtain ⟨-, rfl, -⟩ : tool = call.tool ∧ given = parameters ∧ _ := by
          simpa [hran] using h
        rfl

theorem sees_of_find? (task : StepTask) {name : String} {value : Json}
    (hnames : results.names.Nodup) (h : results.find? name = some value) :
    task.Sees context results name value
      (task.execute backends context results world) := by
  have hdenotes : context.input.has name = false →
      Reference.resolve (Reference.mark name) context.input results =
        value := by
    intro hnew
    have hnone : context.input.find? name = none := by
      simpa [Dict.has] using hnew
    exact Reference.resolve_mark (by simp [Reference.find?, hnone, h])
  constructor
  case prompt =>
    rintro request rfl hname generator asked answer hmem before after hsplit data
    have hvalue : data.find? (String.ofList name.toList) = some value := by
      rw [String.ofList_toList, find?_mergedInput context.input hnames, h,
        Option.some_or]
    rw [prompt_of_generated hmem, Template.fill, String.toList_ofList, hsplit]
    exact Template.fillChars_around_value before hname after hvalue
  case tool =>
    rintro call rfl hnew tool given answer hmem
    have hgiven := resolved_of_invoked hmem
    constructor
    · intro mapping parameter hparameters hmark
      rw [ToolTask.resolved, hparameters] at hgiven
      obtain rfl := Except.ok.inj hgiven
      rw [Reference.resolveAll, Dict.find?_mapValues, hmark, Option.map_some,
        hdenotes hnew]
    · intro hparameters
      rw [ToolTask.resolved, hparameters] at hgiven
      simp only [Reference.mark] at hgiven
      rw [← Reference.mark, hdenotes hnew] at hgiven
      split at hgiven
      · rw [Except.ok.inj hgiven]
      · simp at hgiven
  case transform =>
    rintro change rfl hnew hinput
    have hvalue : change.value context.input results =
        Transform.apply change.transform value := by
      rw [TransformTask.value, hinput, hdenotes hnew]
    rw [execute, Run.pure_apply, hvalue]

end StepTask

namespace Workflow

/-! ## Results during a run -/

variable {begun first second stage : Stage σ} {step : Step}
  {output : StepOutput} {name : String}

/-- On the way between two stages the step ended with the output. -/
def EndedBetween (backends : Backends σ) (workflow : Workflow)
    (context : Context) (begun stage : Stage σ) (step : Step)
    (output : StepOutput) : Prop :=
  ∃ left rest progress world,
    Reaches backends workflow context begun
      (.trying step left rest progress world) ∧
    (step.task.execute backends context progress.results world).value =
      .ok output ∧
    Reaches backends workflow context
      (.choosing rest (progress.complete step output)
        (step.task.execute backends context progress.results world).world)
      stage

theorem EndedBetween.mono
    (h : EndedBetween backends workflow context begun first step output)
    (hreach : Reaches backends workflow context first second) :
    EndedBetween backends workflow context begun second step output := by
  obtain ⟨left, rest, progress, world, hbefore, hvalue, hafter⟩ := h
  exact ⟨left, rest, progress, world, hbefore, hvalue, hafter.trans hreach⟩

theorem EndedBetween.mem {world : σ}
    (h : EndedBetween backends workflow context (workflow.start context world)
      stage step output) :
    step ∈ workflow.steps := by
  obtain ⟨_, _, _, _, hbefore, -, -⟩ := h
  exact (stepsLeft_of_reaches hbefore).subset List.mem_cons_self

@[simp] theorem progress_afterFailure (failure : Failure) (rest : List Step)
    (progress : Progress) (world : σ) :
    (Stage.afterFailure workflow failure rest progress world).progress =
      progress := by
  rw [Stage.afterFailure]
  split <;> rfl

/-- Only a step that is left can change what is found under its id. -/
theorem find?_of_move (hmove : Move backends workflow context first second)
    (hname : name ∉ first.stepsLeft.map (·.id)) :
    second.progress.results.find? name =
      first.progress.results.find? name := by
  cases hmove with
  | finish => rfl
  | refuse => rw [progress_afterFailure]; rfl
  | enter => rfl
  | @complete step left rest progress world output hvalue =>
      have hne : name ≠ step.id := by
        rintro rfl
        exact hname (by simp [Stage.stepsLeft])
      exact Dict.find?_insert_of_ne hne _ _
  | retry => rfl
  | fail => rw [progress_afterFailure]; rfl

theorem find?_of_reaches
    (hreach : Reaches backends workflow context first second)
    (hname : name ∉ first.stepsLeft.map (·.id)) :
    second.progress.results.find? name =
      first.progress.results.find? name := by
  induction hreach with
  | refl => rfl
  | @tail third _ hbefore hmove ih =>
      have hleft := (stepsLeft_of_reaches hbefore).subset
      rw [find?_of_move hmove fun hmem => hname (List.map_subset _ hleft hmem),
        ih]

/-- What the results hold at a stage: the outputs so far. -/
structure Holds (backends : Backends σ) (workflow : Workflow)
    (context : Context) (begun stage : Stage σ) : Prop where
  sorted : stage.progress.results.Sorted
  onlyOutputs : ∀ name value,
    stage.progress.results.find? name = some value →
      ∃ step output,
        EndedBetween backends workflow context begun stage step output ∧
          step.id = name ∧ output.value = value

theorem Holds.of_same (h : Holds backends workflow context begun first)
    (hreach : Reaches backends workflow context first second)
    (hsame : second.progress.results = first.progress.results) :
    Holds backends workflow context begun second where
  sorted := by
    rw [hsame]
    exact h.sorted
  onlyOutputs := by
    intro name value hvalue
    rw [hsame] at hvalue
    obtain ⟨step, output, hended, hstep⟩ := h.onlyOutputs name value hvalue
    exact ⟨step, output, hended.mono hreach, hstep⟩

theorem holds_of_move
    (hbegun : Reaches backends workflow context begun first)
    (hmove : Move backends workflow context first second)
    (h : Holds backends workflow context begun first) :
    Holds backends workflow context begun second := by
  have hreach := hmove.reaches
  cases hmove with
  | finish => exact h.of_same hreach rfl
  | refuse => exact h.of_same hreach (by rw [progress_afterFailure]; rfl)
  | enter => exact h.of_same hreach rfl
  | retry => exact h.of_same hreach rfl
  | fail => exact h.of_same hreach (by rw [progress_afterFailure]; rfl)
  | @complete step left rest progress world output hvalue =>
      constructor
      case sorted => exact h.sorted.insert step.id output.value
      case onlyOutputs =>
        intro name value hfound
        rw [Stage.progress, Progress.complete_results, Dict.find?_insert]
          at hfound
        split at hfound
        next hname =>
          exact ⟨step, output, ⟨left, rest, progress, world, hbegun, hvalue,
            .refl⟩, hname.symm, Option.some.inj hfound⟩
        next =>
          obtain ⟨other, earlier, hended, hother⟩ :=
            h.onlyOutputs name value hfound
          exact ⟨other, earlier, hended.mono hreach, hother⟩

theorem holds_of_reaches {world : σ}
    (hreach : Reaches backends workflow context (workflow.start context world)
      stage) :
    Holds backends workflow context (workflow.start context world) stage := by
  induction hreach with
  | refl => exact ⟨Dict.sorted_nil, by simp [start, Stage.progress]⟩
  | tail hbegun hmove ih => exact holds_of_move hbegun hmove ih

/-- An output stays under the id of its step, because no step that is left has
this id. -/
theorem find?_of_endedBetween (hnodup : (workflow.steps.map (·.id)).Nodup)
    {world : σ}
    (hended : EndedBetween backends workflow context
      (workflow.start context world) stage step output) :
    stage.progress.results.find? step.id = some output.value := by
  obtain ⟨left, rest, progress, moment, hbefore, -, hafter⟩ := hended
  have hleft : step :: rest <:+ workflow.steps := stepsLeft_of_reaches hbefore
  have hnew : step.id ∉ rest.map (·.id) := by
    have hrest := (hleft.sublist.map (·.id)).nodup hnodup
    exact (List.nodup_cons.mp hrest).1
  rw [find?_of_reaches hafter hnew]
  simp [Stage.progress]

/-! ## An execution as a whole -/

/-- What the steps of an execution see of each other's outputs. -/
structure SeesOutputs (backends : Backends σ) (workflow : Workflow)
    (context : Context) (world : σ) (events : List Event) : Prop where
  /-- Every call of a generator or tool is made by an attempt on the way. -/
  called : ∀ event ∈ events, event.IsCall →
    ReportedFrom backends workflow context (workflow.start context world) event
  /-- At every moment the results are the outputs of the steps so far. -/
  held : ∀ stage,
    Reaches backends workflow context (workflow.start context world) stage →
      ∀ name value, stage.progress.results.find? name = some value ↔
        ∃ step output,
          EndedBetween backends workflow context (workflow.start context world)
            stage step output ∧ step.id = name ∧ output.value = value
  /-- Unless the workflow carries on, all steps before one that is tried have
  an output. -/
  complete : workflow.onError ≠ .carryOn →
    ∀ step left rest progress moment,
      Reaches backends workflow context (workflow.start context world)
        (.trying step left rest progress moment) →
      ∃ done, workflow.steps = done ++ step :: rest ∧
        ∀ earlier ∈ done, ∃ output,
          EndedBetween backends workflow context (workflow.start context world)
            (.trying step left rest progress moment) earlier output
  /-- A step that is tried sees every output that is there. -/
  seen : ∀ step left rest progress moment,
    Reaches backends workflow context (workflow.start context world)
      (.trying step left rest progress moment) →
    ∀ earlier output,
      EndedBetween backends workflow context (workflow.start context world)
        (.trying step left rest progress moment) earlier output →
      step.task.Sees context progress.results earlier.id output.value
        (step.task.execute backends context progress.results moment)

theorem Ordered.sees_outputs (hordered : workflow.Ordered) {world : σ}
    {events : List Event}
    (hcalled : ∀ event ∈ events, event.IsCall →
      ReportedFrom backends workflow context (workflow.start context world)
        event) :
    SeesOutputs backends workflow context world events := by
  have hfound : ∀ {stage : Stage σ} {step : Step} {output : StepOutput},
      EndedBetween backends workflow context (workflow.start context world)
        stage step output →
      stage.progress.results.find? step.id = some output.value :=
    fun hended => find?_of_endedBetween hordered.nodup hended
  constructor
  case called => exact hcalled
  case held =>
    intro stage hreach name value
    constructor
    · exact (holds_of_reaches hreach).onlyOutputs name value
    · rintro ⟨step, output, hended, rfl, rfl⟩
      exact hfound hended
  case complete =>
    intro honError step left rest progress moment hreach
    obtain ⟨⟨done, hsplit, hsettled⟩, -⟩ := sound_of_reaches hordered hreach
    refine ⟨done, hsplit, fun earlier hearlier => ?_⟩
    obtain ⟨value, hvalue⟩ :=
      Dict.has_iff_exists.mp (hsettled.all honError earlier hearlier)
    obtain ⟨other, output, hended, hid, -⟩ :=
      (holds_of_reaches hreach).onlyOutputs earlier.id value hvalue
    -- No other step of the workflow has this id.
    have hmem : earlier ∈ workflow.steps := by
      rw [hsplit]
      exact List.mem_append_left _ hearlier
    obtain rfl := hordered.eq_of_id_eq hended.mem hmem hid
    exact ⟨output, hended⟩
  case seen =>
    intro step left rest progress moment hreach earlier output hended
    exact step.task.sees_of_find? (holds_of_reaches hreach).sorted.nodup
      (hfound hended)

end Workflow

/-- Slots and references agree on a name unless one value hides another; and
in every execution of a valid workflow skill a step sees the outputs of the
steps before it, as slots whatever the input holds, and as references when the
input has nothing under their ids. -/
theorem executeWithin_sees_outputs (backends : Backends σ)
    {skills : Dict Skill} {id : String} {skill : Skill}
    (hfind : skills.find? id = some skill)
    (hdefinition : skill.definition = .workflow workflow)
    (hvalid : skill.validate = [])
    (levels : Nat) (context : Context) (world : σ) :
    (∀ (input : Json.Object) {results : Json.Object},
      results.names.Nodup → ∀ name, ReadBothWays input results name) ∧
    workflow.SeesOutputs backends (skill.prepared context) world
      (executeWithin backends skills levels id context world).events := by
  refine ⟨fun input _ hnames name => readBothWays input hnames name, ?_⟩
  have hordered := Skill.ordered_of_validate hdefinition hvalid
  apply hordered.sees_outputs
  intro event hmem hcall
  exact reported_of_executeWithin hfind hdefinition hmem hcall

/-- The blog post of the library, run on an input that has an outline of its
own: the later steps are shown the one that was generated. -/
theorem blogPost_sees_outputs :
    let skill := SkillLibrary.blogPost.skill "post" "Post" "A post" .custom []
    let context : Context :=
      ⟨[("outline", .string "mine"), ("topic", .string "rain")], .empty,
        ⟨"mock", none⟩, .empty⟩
    let backends : Backends Scripted.World :=
      ⟨Router.empty.add (Scripted.echo "mock" 0), Host.empty.registry⟩
    skill.validate = [] ∧ ∃ workflow, skill.definition = .workflow workflow ∧
      ReadBothWays context.input [("outline", .string "generated")] "outline" ∧
      workflow.SeesOutputs backends (skill.prepared context) .empty
        (execute backends [("post", skill)] "post" context .empty).events := by
  intro skill context backends
  have hvalid : skill.validate = [] := by decide
  have hfind : Dict.find? [("post", skill)] "post" = some skill := by rfl
  obtain ⟨hread, hsees⟩ := executeWithin_sees_outputs backends hfind rfl hvalid
    (maxDepth + 1) context Scripted.World.empty
  exact ⟨hvalid, _, rfl, hread context.input (by decide) "outline", hsees⟩

end SkillEngine
