import SkillEngine.Proofs.Workflow.Execution
import SkillEngine.Proofs.Execution.Hybrid
import SkillEngine.Proofs.Execution.Step

/-!
# Tokens

Every generation that succeeds costs tokens, and each part of a run passes on
what was spent in it: a step through its output, a workflow through the state
of its context, a called skill through its result.  Here the tokens are read
off the events of a run instead, where every generation stands exactly once,
and both ways of counting agree.

The counter of a context has 64 bits and wraps around, so the parts are
compared as words; only the last theorem speaks of numbers.
-/

namespace SkillEngine

variable {σ : Type} {backends : Backends σ} {context : Context} {world : σ}

/-- The tokens that an event costs: those of a generation that succeeded and
says what it used, at most the greatest number of 32 bits. -/
def Event.cost : Event → Nat
  | .generated _ _ (.ok ⟨_, some usage⟩) =>
    min (usage.inputTokens.toNat + usage.outputTokens.toNat) (2 ^ 32 - 1)
  | _ => 0

/-- The tokens that events cost together. -/
def totalCost : List Event → Nat
  | [] => 0
  | event :: events => event.cost + totalCost events

@[simp] theorem totalCost_nil : totalCost [] = 0 := rfl

@[simp] theorem totalCost_cons (event : Event) (events : List Event) :
    totalCost (event :: events) = event.cost + totalCost events := rfl

@[simp] theorem totalCost_append (early late : List Event) :
    totalCost (early ++ late) = totalCost early + totalCost late := by
  induction early with
  | nil => simp
  | cons event early ih => simp [ih, Nat.add_assoc]

@[simp] theorem Event.cost_logged (line : LogLine) :
    (Event.logged line).cost = 0 := rfl

@[simp] theorem Event.cost_progressed (done total : Nat) (message : String) :
    (Event.progressed done total message).cost = 0 := rfl

@[simp] theorem Event.cost_invoked (tool : String) (parameters : Json.Object)
    (answer : Except Failure Json) :
    (Event.invoked tool parameters answer).cost = 0 := rfl

/-- What events cost, as a count in a context. -/
def wordCost (events : List Event) : UInt64 := UInt64.ofNat (totalCost events)

@[simp] theorem wordCost_nil : wordCost [] = 0 := rfl

@[simp] theorem wordCost_cons (event : Event) (events : List Event) :
    wordCost (event :: events) =
      UInt64.ofNat event.cost + wordCost events := by
  simp [wordCost]

@[simp] theorem wordCost_append (early late : List Event) :
    wordCost (early ++ late) = wordCost early + wordCost late := by
  simp [wordCost]

@[simp] theorem wordCost_map_logged (log : List LogLine) :
    wordCost (log.map .logged) = 0 := by
  induction log with
  | nil => rfl
  | cons line log ih => simp [ih]

theorem toNat_clampWord32 (count : Nat) :
    (clampWord32 count).toNat = min count (2 ^ 32 - 1) := by
  have hbound : min count (2 ^ 32 - 1) < 2 ^ 32 := by omega
  rw [clampWord32, UInt32.toNat_ofNat']
  exact Nat.mod_eq_of_lt hbound

theorem Usage.toNat_total (usage : Usage) :
    usage.total.toNat =
      min (usage.inputTokens.toNat + usage.outputTokens.toNat)
        (2 ^ 32 - 1) :=
  toNat_clampWord32 _

theorem Generation.tokens_eq (generation : Generation) (generator : String)
    (request : GenerationRequest) :
    generation.tokens =
      UInt64.ofNat
        (Event.generated generator request (.ok generation)).cost := by
  obtain ⟨text, usage⟩ := generation
  cases usage with
  | none => rfl
  | some usage =>
      have hcost : (Event.generated generator request
          (.ok ⟨text, some usage⟩)).cost = usage.total.toNat :=
        usage.toNat_total.symm
      rw [hcost]
      simp [tokens]

/-! ## Steps -/

/-- The tokens that an answer passes on. -/
def passedOn : Except Failure StepOutput → UInt64
  | .ok output => output.tokens
  | .error _ => 0

/-- The answer passes on what was spent for it. -/
def PassesOn (ran : Ran σ (Except Failure StepOutput)) : Prop :=
  passedOn ran.value = wordCost ran.events

theorem StepTask.Outcome.passesOn {ran : Ran σ (Except Failure StepOutput)}
    (h : StepTask.Outcome ran) : PassesOn ran := by
  cases h with
  | failed failure world => rfl
  | computed value world => rfl
  | generated generator request answer world =>
      cases answer with
      | error failure => simp [PassesOn, passedOn, Except.map, Event.cost]
      | ok generation =>
          have htokens := generation.tokens_eq generator request
          simp [PassesOn, passedOn, Except.map, htokens]
  | invoked tool parameters answer passed log world =>
      have hfree : passedOn (passed.map .free) = 0 := by
        cases passed with
        | error failure => rfl
        | ok value => rfl
      simp [PassesOn, hfree]

theorem Step.Outcome.passesOn {ran : Ran σ (Except Failure StepOutput)}
    (h : Step.Outcome ran) : PassesOn ran := by
  induction h with
  | last hran => exact hran.passesOn
  | @again first later hfirst failure hvalue line hlater ih =>
      -- An attempt that fails has spent nothing.
      have hspent := hfirst.passesOn
      have hfree : wordCost first.events = 0 := by
        rw [← hspent, hvalue]
        rfl
      simpa [PassesOn, hfree] using ih

/-! ## Definitions -/

/-- In a context that had spent so many tokens before, the events are charged. -/
def Charged (before : UInt64) (events : List Event) (context : Context) :
    Prop :=
  context.state.tokensUsed = before + wordCost events

theorem Workflow.tokensUsed_runSteps (backends : Backends σ)
    (workflow : Workflow) (context : Context) (steps : List Step)
    (progress : Progress) (world : σ) :
    let ran := workflow.runSteps backends context steps progress world
    ran.value.2.state.tokensUsed =
      progress.state.tokensUsed + wordCost ran.events := by
  induction steps generalizing progress world with
  | nil => simp [runSteps_nil]
  | cons step steps ih =>
      have hstep := (step.outcome_run backends workflow context
        progress.results world).passesOn
      rw [PassesOn] at hstep
      cases hvalue : (step.run backends workflow context progress.results
        world).value with
      | ok output =>
          rw [hvalue] at hstep
          rw [runSteps_of_ok hvalue]
          simp only [ih, wordCost_append, wordCost_cons, ← hstep]
          simp [Progress.complete, Progress.begin, passedOn, UInt64.add_assoc]
      | error failure =>
          rw [hvalue] at hstep
          by_cases honError : workflow.onError = .carryOn
          · rw [runSteps_of_skip hvalue honError]
            simp only [ih, wordCost_append, wordCost_cons, ← hstep]
            simp [Progress.begin, passedOn]
          · rw [runSteps_of_abort hvalue honError]
            simp only [← hstep]
            simp [Progress.begin, passedOn]

theorem Prompt.charged_run (backends : Backends σ) (prompt : Prompt)
    (context : Context) (world : σ) :
    let ran := prompt.run backends context world
    Charged context.state.tokensUsed ran.events ran.value.2 := by
  have hanswer := (backends.outcome_generate context
    (Template.fill prompt.template context.input) prompt.systemPrompt
    prompt.model world).passesOn
  rw [PassesOn] at hanswer
  simp only [run, Run.bind_apply]
  cases hvalue : (backends.generate context
      (Template.fill prompt.template context.input) prompt.systemPrompt
      prompt.model world).value with
  | ok output =>
      rw [hvalue] at hanswer
      simp [Charged, Context.spend, ← hanswer, passedOn]
  | error failure =>
      rw [hvalue] at hanswer
      simp [Charged, ← hanswer, passedOn]

theorem Workflow.wordCost_modeEvents (workflow : Workflow) :
    wordCost workflow.modeEvents = 0 := by
  unfold modeEvents
  split <;> simp

theorem Workflow.tokensUsed_handOver (workflow : Workflow) (context : Context)
    (reached : Except Failure Unit × Progress) :
    (workflow.handOver context reached).2.state.tokensUsed =
      reached.2.state.tokensUsed := by
  obtain ⟨_ | _, progress⟩ := reached
  · rfl
  · rfl

theorem Workflow.charged_dispatch (backends : Backends σ) (workflow : Workflow)
    (context : Context) (world : σ) :
    let ran := workflow.dispatch backends context world
    Charged context.state.tokensUsed ran.events ran.value.2 := by
  have hsteps := tokensUsed_runSteps backends workflow context workflow.steps
    ⟨context.state, []⟩ world
  rw [dispatch_apply]
  simp only [Charged, tokensUsed_handOver, wordCost_append,
    wordCost_modeEvents, UInt64.zero_add]
  exact hsteps

theorem ToolUse.charged_run (backends : Backends σ) (use : ToolUse)
    (context : Context) (world : σ) :
    let ran := use.run backends context world
    Charged context.state.tokensUsed ran.events ran.value.2 := by
  rcases backends.tools.invoke_cases use.tool
    (Reference.resolveAll use.mapping context.input []) context.toolContext
    world with ⟨refusal, hran⟩ | ⟨answer, passed, log, after, hran⟩
  · simp [Charged, run, Backends.callTool, hran]
  · simp [Charged, run, Backends.callTool, hran]

/-- Skills that run in a fresh state report in their results what they spent. -/
def Hybrid.Reported (runSkill : Hybrid.Runner σ) : Prop :=
  ∀ id context world, context.state.tokensUsed = 0 →
    let ran := runSkill id context world
    ran.value.1.tokensUsed = wordCost ran.events

theorem Hybrid.charged_runEntries {runSkill : Hybrid.Runner σ}
    (hreported : Hybrid.Reported runSkill) (total position : Nat)
    (entries : List SubSkill) (context : Context) (world : σ) :
    let ran := runEntries runSkill total position entries context world
    Charged context.state.tokensUsed ran.events ran.value.2 := by
  induction entries generalizing position context world with
  | nil => simp [Charged, runEntries_nil]
  | cons entry entries ih =>
      have hentry := hreported entry.skill (context.childFor entry) world rfl
      cases hsuccess : (runSkill entry.skill (context.childFor entry)
          world).value.1.success with
      | false =>
          rw [runEntries_of_failure hsuccess]
          simp [Charged, Context.charge, Context.enter, hentry]
      | true =>
          rw [runEntries_of_success hsuccess]
          have hlater := ih (position + 1)
            (context.behind entry
              (runSkill entry.skill (context.childFor entry) world).value.1)
            (runSkill entry.skill (context.childFor entry) world).world
          simp only [Charged] at hlater ⊢
          rw [hlater]
          simp [Context.behind, Context.keep, Context.charge, Context.enter,
            hentry, UInt64.add_assoc]

theorem Hybrid.wordCost_modeEvents (hybrid : Hybrid) :
    wordCost hybrid.modeEvents = 0 := by
  unfold modeEvents
  split <;> simp

theorem Hybrid.tokensUsed_handOver (hybrid : Hybrid)
    (reached : Except Failure (List Json) × Context) :
    (hybrid.handOver reached).2.state.tokensUsed =
      reached.2.state.tokensUsed := by
  obtain ⟨_ | _, context⟩ := reached
  · rfl
  · rfl

theorem Hybrid.charged_dispatch {runSkill : Hybrid.Runner σ}
    (hreported : Hybrid.Reported runSkill) (hybrid : Hybrid)
    (context : Context) (world : σ) :
    let ran := hybrid.dispatch runSkill context world
    Charged context.state.tokensUsed ran.events ran.value.2 := by
  have hentries := charged_runEntries hreported hybrid.skills.length 0
    hybrid.skills context world
  rw [dispatch_apply]
  simp only [Charged, tokensUsed_handOver, wordCost_append,
    wordCost_modeEvents, UInt64.zero_add]
  exact hentries

theorem Definition.charged_run (backends : Backends σ)
    {runSkill : Hybrid.Runner σ} (hreported : Hybrid.Reported runSkill)
    (definition : Definition) (context : Context) (world : σ) :
    let ran := definition.run backends runSkill context world
    Charged context.state.tokensUsed ran.events ran.value.2 := by
  cases definition with
  | prompt value => exact value.charged_run backends context world
  | workflow value => exact value.charged_dispatch backends context world
  | tool value => exact value.charged_run backends context world
  | hybrid value => exact value.charged_dispatch hreported context world

/-! ## Executions -/

theorem Skill.conclude_tokens (before : UInt64)
    (outcome : Except Failure Dispatched × Context) :
    (conclude before outcome).1.tokensUsed =
        (shownTokens before outcome.2.state.tokensUsed).getD 0 ∧
      (conclude before outcome).2.state.tokensUsed =
        outcome.2.state.tokensUsed := by
  obtain ⟨_ | _, context⟩ := outcome
  · exact ⟨rfl, rfl⟩
  · exact ⟨rfl, rfl⟩

theorem Skill.shownTokens_zero (after : UInt64) :
    (shownTokens 0 after).getD 0 = after := by
  rw [shownTokens]
  by_cases hpos : 0 < after
  · simp [hpos]
  · have hzero : after = 0 := by
      have := UInt64.not_lt.mp hpos
      exact UInt64.le_zero_iff.mp this
    simp [hzero]

@[simp] theorem Skill.shownTokens_self (before : UInt64) :
    shownTokens before before = none := by
  simp [shownTokens]

/-- The context of an execution is charged with the events, and the result
reports the difference. -/
theorem executeWithin_tokens (backends : Backends σ) (skills : Dict Skill)
    (levels : Nat) (id : String) (context : Context) (world : σ) :
    let ran := executeWithin backends skills levels id context world
    Charged context.state.tokensUsed ran.events ran.value.2 ∧
      ran.value.1.tokensUsed =
        (Skill.shownTokens context.state.tokensUsed
          ran.value.2.state.tokensUsed).getD 0 := by
  induction levels using Nat.strong_induction_on generalizing id context world with
  | _ levels ih =>
    intro ran
    rcases executeWithin_cases backends skills levels id context world with
      ⟨failure, -, hran⟩ | ⟨skill, left, -, hlevels, -, hran⟩
    · simp only [ran, hran]
      simp [Charged, SkillResult.failed, SkillResult.tokensUsed]
    have hreported : Hybrid.Reported (executeWithin backends skills left) := by
      intro id context world hzero called
      obtain ⟨hcharged, hshown⟩ := ih left (by omega) id context world
      rw [Charged, hzero, UInt64.zero_add] at hcharged
      simp only [called]
      rw [hshown, hzero, Skill.shownTokens_zero, hcharged]
    rcases Skill.run_cases backends (executeWithin backends skills left) skill
      context world with ⟨failure, -, hrun⟩ | ⟨-, hrun⟩
    · obtain ⟨hshown, hstate⟩ := Skill.conclude_tokens context.state.tokensUsed
        (.error failure, skill.prepared context)
      simp only [ran, hran, hrun]
      rw [Charged, hshown, hstate]
      simp [Skill.prepared, Context.withOutputs]
    · obtain ⟨hshown, hstate⟩ := Skill.conclude_tokens context.state.tokensUsed
        (skill.definition.run backends (executeWithin backends skills left)
          (skill.prepared context) world).value
      have hcharged := skill.definition.charged_run backends hreported
        (skill.prepared context) world
      simp only [ran, hran, hrun]
      rw [Charged, hshown, hstate]
      exact ⟨hcharged, rfl⟩

/-- As long as the counter does not overflow, an execution reports what its
generations cost, no more and no less: in its result and in its context. -/
theorem executeWithin_accounts_tokens (backends : Backends σ)
    (skills : Dict Skill) (levels : Nat) (id : String) (context : Context)
    (world : σ)
    (hbound : context.state.tokensUsed.toNat +
      totalCost (executeWithin backends skills levels id context world).events <
        2 ^ 64) :
    let ran := executeWithin backends skills levels id context world
    ran.value.1.tokensUsed.toNat = totalCost ran.events ∧
      ran.value.2.state.tokensUsed.toNat =
        context.state.tokensUsed.toNat + totalCost ran.events := by
  intro ran
  change context.state.tokensUsed.toNat + totalCost ran.events < 2 ^ 64
    at hbound
  obtain ⟨hcharged, hshown⟩ :=
    executeWithin_tokens backends skills levels id context world
  have hcost : (wordCost ran.events).toNat = totalCost ran.events := by
    rw [wordCost, UInt64.toNat_ofNat']
    exact Nat.mod_eq_of_lt (by omega)
  have hafter : ran.value.2.state.tokensUsed.toNat =
      context.state.tokensUsed.toNat + totalCost ran.events := by
    rw [hcharged, UInt64.toNat_add, hcost]
    exact Nat.mod_eq_of_lt hbound
  refine ⟨?_, hafter⟩
  rw [hshown, Skill.shownTokens]
  by_cases hspent : context.state.tokensUsed < ran.value.2.state.tokensUsed
  · have hle := UInt64.le_of_lt hspent
    rw [if_pos hspent, Option.getD_some, UInt64.toNat_sub_of_le _ _ hle, hafter]
    omega
  · have hle := UInt64.le_iff_toNat_le.mp (UInt64.not_lt.mp hspent)
    rw [if_neg hspent, Option.getD_none]
    rw [hafter] at hle
    simp only [UInt64.toNat_zero]
    omega

/-- A hybrid that says a text twice and then comes to an entry that is not
registered: it fails, and its context is charged for both generations. -/
theorem interrupted_accounts_tokens :
    let say : Prompt :=
      ⟨Template.slot "text", [SkillLibrary.requiredText "text" "Text"], none,
        none⟩
    let entries : List SubSkill :=
      [⟨"say", none, none⟩, ⟨"say", some "again", none⟩, ⟨"gone", none, none⟩]
    let skills : Dict Skill :=
      [("say", (Definition.prompt say).skill "say" "Say" "Says it" .custom []),
        ("twice", (Definition.hybrid ⟨entries, ⟨.sequential, none⟩, none⟩).skill
          "twice" "Twice" "Says it twice" .custom [])]
    let context : Context :=
      ⟨[("text", .string "rain")], .empty, ⟨"mock", none⟩, ⟨[], [], none, 7⟩⟩
    let backends : Backends Scripted.World :=
      ⟨Router.empty.add (Scripted.echo "mock" 0), Host.empty.registry⟩
    let ran := execute backends skills "twice" context .empty
    context.state.tokensUsed.toNat + totalCost ran.events < 2 ^ 64 ∧
      ran.value.1.success = false ∧
      ran.value.1.tokensUsed.toNat = 300 ∧
      ran.value.2.state.tokensUsed.toNat = 307 := by
  intro say entries skills context backends ran
  have hcost : totalCost ran.events = 300 := by decide
  have hbound :
      context.state.tokensUsed.toNat + totalCost ran.events < 2 ^ 64 := by
    rw [hcost]
    decide
  obtain ⟨hresult, hcontext⟩ := executeWithin_accounts_tokens backends skills
    (maxDepth + 1) "twice" context Scripted.World.empty hbound
  have hran : executeWithin backends skills (maxDepth + 1) "twice" context
      Scripted.World.empty = ran := rfl
  rw [hran, hcost] at hresult hcontext
  exact ⟨hbound, by decide, hresult, hcontext⟩

end SkillEngine
