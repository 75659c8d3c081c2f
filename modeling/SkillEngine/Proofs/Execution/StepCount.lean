import SkillEngine.Proofs.Execution.Turns
import SkillEngine.Proofs.Workflow.Completion

/-!
# The number of steps in a result

A successful skill hands over the number of its steps.  A failed one shows how
many outputs of steps its context holds, and only workflows put outputs there.
So the number of a workflow is right in either case, while that of a hybrid is
right when it succeeds and zero when it fails, however many of its entries
succeeded before.
-/

namespace SkillEngine

variable {σ : Type} {backends : Backends σ} {skills : Dict Skill}

/-- The number of steps that a result shows. -/
def SkillResult.stepsShown (result : SkillResult) : Option Nat :=
  result.details.map (·.stepsExecuted)

/-! ## Hybrids -/

/-- The entries of a hybrid leave the outputs of steps alone. -/
theorem Hybrid.stepOutputs_runEntries (runSkill : Runner σ)
    (total position : Nat) (entries : List SubSkill) (context : Context)
    (world : σ) :
    let ran := runEntries runSkill total position entries context world
    ran.value.2.state.stepOutputs = context.state.stepOutputs := by
  induction entries generalizing position context world with
  | nil => rfl
  | cons entry entries ih =>
      cases hsuccess : (runSkill entry.skill (context.childFor entry)
          world).value.1.success with
      | false =>
          rw [runEntries_of_failure hsuccess]
          rfl
      | true =>
          rw [runEntries_of_success hsuccess]
          exact ih _ _ _

theorem Completes.stepsShown {hybrid : Hybrid} {parent : Context}
    {turns : List (Turn σ)} {value : Except Failure (List Json) × Context}
    (h : Completes hybrid.skills parent turns value) (before : UInt64) :
    let concluded := Skill.conclude before (hybrid.handOver value)
    concluded.1.success = true ∧
      concluded.1.stepsShown = some turns.length := by
  obtain ⟨outcome, context⟩ := value
  obtain rfl : outcome = .ok (turns.map Turn.output) := h.outcome
  have hlength : hybrid.skills.length = turns.length := by
    rw [← h.entries, List.length_map]
  exact ⟨rfl, congrArg some hlength⟩

theorem BreaksOff.stepsShown {hybrid : Hybrid} {parent : Context}
    {earlier : List (Turn σ)} {failing : Turn σ}
    {value : Except Failure (List Json) × Context}
    (h : BreaksOff hybrid.skills parent earlier failing value)
    (hempty : value.2.state.stepOutputs = []) (before : UInt64) :
    let concluded := Skill.conclude before (hybrid.handOver value)
    concluded.1.success = false ∧ concluded.1.stepsShown = some 0 := by
  obtain ⟨outcome, context⟩ := value
  obtain rfl : outcome = .error (failing.entry.failure failing.result) :=
    h.outcome
  have hlength : context.state.stepOutputs.length = 0 :=
    congrArg List.length hempty
  exact ⟨rfl, congrArg some hlength⟩

/-- How the number that a hybrid shows stands to the turns of its entries: it
is theirs when all succeed, and zero when the last of them fails. -/
inductive Hybrid.Shows (runSkill : Runner σ) (hybrid : Hybrid)
    (context : Context) (world : σ) (ran : Ran σ (SkillResult × Context)) :
    Prop where
  | all {turns : List (Turn σ)}
      (hturns : Turns runSkill context world turns ran.world)
      (hentries : turns.map (·.entry) = hybrid.skills)
      (hsucceed : ∀ turn ∈ turns, turn.result.success = true)
      (hsuccess : ran.value.1.success = true)
      (hshown : ran.value.1.stepsShown = some turns.length)
  | brokenOff {earlier : List (Turn σ)} {failing : Turn σ}
      {later : List SubSkill}
      (hturns : Turns runSkill context world (earlier ++ [failing]) ran.world)
      (hentries :
        earlier.map (·.entry) ++ failing.entry :: later = hybrid.skills)
      (hsucceed : ∀ turn ∈ earlier, turn.result.success = true)
      (hfails : failing.result.success = false)
      (hfailure : ran.value.1.success = false)
      (hshown : ran.value.1.stepsShown = some 0)

theorem executeWithin_shows_of_hybrid (backends : Backends σ)
    {levels : Nat} {id : String} {skill : Skill} {hybrid : Hybrid}
    (hfind : skills.find? id = some skill)
    (haccepted : skill.refusal? (levels + 1) id = none)
    (hdefinition : skill.definition = .hybrid hybrid)
    (context : Context) (world : σ) :
    hybrid.Shows (executeWithin backends skills levels) context world
      (executeWithin backends skills (levels + 1) id context world) := by
  set runSkill := executeWithin backends skills levels with hrunSkill
  set entries := Hybrid.runEntries runSkill hybrid.skills.length 0
    hybrid.skills (skill.prepared context) world with hentries
  have hran : executeWithin backends skills (levels + 1) id context world =
      ⟨Skill.conclude context.state.tokensUsed
        (hybrid.handOver entries.value), hybrid.modeEvents ++ entries.events,
        entries.world⟩ :=
    Call.run_of_hybrid backends hfind haccepted hdefinition context world
  have hempty : entries.value.2.state.stepOutputs = [] :=
    Hybrid.stepOutputs_runEntries runSkill hybrid.skills.length 0
      hybrid.skills (skill.prepared context) world
  obtain ⟨turns, hturns, -, hend⟩ := Hybrid.runEntries_turns 0 hybrid.skills
    (skill.prepared context) world
  have hturns : Turns runSkill context world turns entries.world :=
    hturns.of_input (skill.childFor_prepared hdefinition context)
  rw [hran]
  rcases hend with hend | ⟨earlier, failing, rfl, hend⟩
  · obtain ⟨hsuccess, hshown⟩ := hend.stepsShown context.state.tokensUsed
    exact .all hturns hend.entries hend.succeed hsuccess hshown
  · obtain ⟨later, hlater⟩ := hend.entries
    obtain ⟨hfailure, hshown⟩ :=
      hend.stepsShown hempty context.state.tokensUsed
    exact .brokenOff hturns hlater hend.succeed hend.fails hfailure hshown

/-! ## Workflows -/

/-- How the number that a workflow shows stands to its steps: it is the number
of those that end with an output.  A workflow whose parameters are not given
does not begin. -/
inductive Workflow.Shows (backends : Backends σ) (workflow : Workflow)
    (skill : Skill) (context : Context) (world : σ)
    (ran : Ran σ (SkillResult × Context)) : Prop where
  | missing {failure : Failure}
      (hmissing :
        (applyParameters skill.parameters context.input).1 = .error failure)
      (hsilent : ran.events = [])
      (hshown : ran.value.1.stepsShown = some 0)
  | completed {completed : List (Step × StepOutput)}
      (hexactly : ∀ step output, (step, output) ∈ completed ↔
        AnswersFrom backends workflow (skill.prepared context)
          (workflow.start (skill.prepared context) world) step (.ok output))
      (hinOrder : (completed.map Prod.fst).Sublist workflow.steps)
      (hshown : ran.value.1.stepsShown = some completed.length)

theorem executeWithin_shows_of_workflow (backends : Backends σ)
    {levels : Nat} {id : String} {skill : Skill} {workflow : Workflow}
    (hfind : skills.find? id = some skill)
    (haccepted : skill.refusal? (levels + 1) id = none)
    (hdefinition : skill.definition = .workflow workflow)
    (context : Context) (world : σ) :
    workflow.Shows backends skill context world
      (executeWithin backends skills (levels + 1) id context world) := by
  have hvalid := (Skill.refusal?_eq_none.mp haccepted).2.2
  have hordered : workflow.Ordered :=
    Skill.ordered_of_validate hdefinition hvalid
  rw [executeWithin_of_accepted hfind haccepted]
  cases hgiven : (applyParameters skill.parameters context.input).1 with
  | error failure =>
      rw [Skill.run_of_missing hgiven]
      exact .missing hgiven rfl rfl
  | ok _ =>
      obtain ⟨completed, htallied⟩ := Workflow.exists_tallied backends workflow
        (skill.prepared context) workflow.steps
        ⟨(skill.prepared context).state, []⟩ world hordered.nodup
        (fun _ _ => rfl)
      have haccounted := htallied.accounted hordered.nodup
        context.state.tokensUsed
      rw [Skill.run_of_given hgiven, hdefinition, Definition.run,
        Workflow.dispatch_apply]
      exact .completed haccounted.exactly haccounted.inOrder haccounted.counted

/-! ## Both -/

/-- The number of steps that a skill shows once it is dispatched.  For a
workflow it is the number of steps that end with an output, whether the
workflow succeeds or fails.  A hybrid that succeeds shows how many entries had
their turns; one that fails shows zero, although the entries before the failing
one succeeded. -/
theorem executeWithin_shows_steps (backends : Backends σ)
    {levels : Nat} {id : String} {skill : Skill}
    (hfind : skills.find? id = some skill)
    (haccepted : skill.refusal? (levels + 1) id = none)
    (context : Context) (world : σ) :
    let ran := executeWithin backends skills (levels + 1) id context world
    (∀ workflow, skill.definition = .workflow workflow →
      workflow.Shows backends skill context world ran) ∧
    ∀ hybrid, skill.definition = .hybrid hybrid →
      hybrid.Shows (executeWithin backends skills levels) context world ran := by
  intro ran
  constructor
  · intro workflow hdefinition
    exact executeWithin_shows_of_workflow backends hfind haccepted hdefinition
      context world
  · intro hybrid hdefinition
    exact executeWithin_shows_of_hybrid backends hfind haccepted hdefinition
      context world

/-! ## A hybrid that breaks off -/

namespace Hybrid

/-- A skill that says its input. -/
def say : Skill :=
  (Definition.prompt ⟨Template.slot "text",
    [SkillLibrary.requiredText "text" "Text"], none, none⟩).skill "say" "Say"
    "Says it" .custom []

/-- Say the input and then run a skill that is not registered. -/
def interrupted : Hybrid :=
  ⟨[⟨"say", none, none⟩, ⟨"gone", none, none⟩], ⟨.sequential, none⟩, none⟩

/-- Both skills that are registered. -/
def sayingSkills : Dict Skill :=
  [("outer", (Definition.hybrid interrupted).skill "outer" "Outer" "Outer"
      .custom []),
    ("say", say)]

/-- Something to say. -/
def rain : Context :=
  ⟨[("text", .string "rain")], .empty, ⟨"mock", none⟩, .empty⟩

/-- A generator that gives its prompt back. -/
def echoing : Backends Scripted.World :=
  ⟨Router.empty.add (Scripted.echo "mock" 0), Host.empty.registry⟩

/-- The hybrid is dispatched and breaks off, and what it shows is as said. -/
theorem interrupted_shows_steps :
    let skill :=
      (Definition.hybrid interrupted).skill "outer" "Outer" "Outer" .custom []
    let ran := executeWithin echoing sayingSkills (maxDepth + 1) "outer" rain
      Scripted.World.empty
    sayingSkills.find? "outer" = some skill ∧
      skill.refusal? (maxDepth + 1) "outer" = none ∧
      (∀ workflow, skill.definition = .workflow workflow →
        workflow.Shows echoing skill rain Scripted.World.empty ran) ∧
      ∀ hybrid, skill.definition = .hybrid hybrid →
        hybrid.Shows (executeWithin echoing sayingSkills maxDepth) rain
          Scripted.World.empty ran := by
  intro skill ran
  have hfind : sayingSkills.find? "outer" = some skill := rfl
  have haccepted : skill.refusal? (maxDepth + 1) "outer" = none := by decide
  exact ⟨hfind, haccepted, executeWithin_shows_steps echoing hfind haccepted
    rain Scripted.World.empty⟩

/-- The first entry succeeds and the second fails: one entry completed, and
the result shows none. -/
theorem interrupted_shows_zero :
    let runSkill := executeWithin echoing sayingSkills maxDepth
    let ran := execute echoing sayingSkills "outer" rain Scripted.World.empty
    ∃ said failing : Turn Scripted.World,
      Turns runSkill rain Scripted.World.empty [said, failing] ran.world ∧
        [said.entry, failing.entry] = interrupted.skills ∧
        said.result.success = true ∧ failing.result.success = false ∧
        ran.value.1.error =
          some "sub-skill gone failed: skill not found: gone" ∧
        ran.value.1.stepsShown = some 0 := by
  intro runSkill ran
  set said : Turn Scripted.World :=
    ⟨⟨"say", none, none⟩, runSkill "say" rain Scripted.World.empty⟩ with hsaid
  refine ⟨said, ⟨⟨"gone", none, none⟩, runSkill "gone" rain said.ran.world⟩,
    .cons rfl (.cons rfl (.nil _)), rfl, ?_, ?_, ?_, ?_⟩
  all_goals decide

end Hybrid

end SkillEngine
