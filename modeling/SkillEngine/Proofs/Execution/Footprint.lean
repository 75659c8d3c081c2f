import SkillEngine.Proofs.Execution.Repetition
import SkillEngine.Proofs.Execution.StepCount

/-!
# What an execution leaves of its context

A context is handed to a skill and comes back changed.  This file bounds the
change.  The surroundings stay.  The input gains defaults of the parameters that
the skill itself declares, and nothing under a name that was given.  Bindings
come from the entries of a hybrid and from nowhere else, the outputs of steps
are gone whatever the end was, and tokens are only added.

Each definition gets a lemma about its own part of the state.  A skill that is
called by an entry works on a context of its own, so nothing here depends on
what the called skills do.
-/

namespace SkillEngine

variable {σ : Type} {backends : Backends σ}

/-! ## The input -/

/-- The first parameter leaves the input to the others, or fills in its default
before them, or ends the check. -/
theorem applyParameters_cons_cases (parameter : Parameter)
    (parameters : List Parameter) (input : Json.Object) :
    let filled := (applyParameters (parameter :: parameters) input).2
    filled = (applyParameters parameters input).2 ∨
      (∃ value, parameter.default = some value ∧
        isGiven (input.find? parameter.name) = false ∧
        filled =
          (applyParameters parameters (input.insert parameter.name value)).2) ∨
      filled = input := by
  intro filled
  by_cases hgiven : isGiven (input.find? parameter.name) = true
  · exact .inl (congrArg Prod.snd (applyParameters_of_given hgiven parameters))
  · have hmissing := Bool.eq_false_of_not_eq_true hgiven
    cases hdefault : parameter.default with
    | some value =>
        refine .inr (.inl ⟨value, rfl, hmissing, ?_⟩)
        simp only [filled, applyParameters, if_neg hgiven, hdefault]
    | none =>
        by_cases hrequired : parameter.required = true
        · refine .inr (.inr ?_)
          simp only [filled, applyParameters, if_neg hgiven, hdefault,
            if_pos hrequired]
        · refine .inl ?_
          simp only [filled, applyParameters, if_neg hgiven, hdefault,
            if_neg hrequired]

/-- The default of the parameter stands where nothing was given. -/
structure Parameter.FilledIn (parameter : Parameter)
    (before after : Json.Object) : Prop where
  missing : before.find? parameter.name = none ∨
    before.find? parameter.name = some .null
  default : ∃ value, parameter.default = some value ∧
    after.find? parameter.name = some value

/-- Under every name the input stays, or it gains the default of a parameter of
that name. -/
theorem filledIn_applyParameters (parameters : List Parameter)
    (input : Json.Object) (name : String) :
    let filled := (applyParameters parameters input).2
    filled.find? name = input.find? name ∨
      ∃ parameter ∈ parameters, parameter.name = name ∧
        parameter.FilledIn input filled := by
  induction parameters generalizing input with
  | nil => exact .inl rfl
  | cons parameter parameters ih =>
      intro filled
      have hcases := applyParameters_cons_cases parameter parameters input
      change filled = _ ∨ (∃ value, _ ∧ _ ∧ filled = _) ∨ filled = _ at hcases
      rcases hcases with
        hfilled | ⟨value, hdefault, hmissing, hfilled⟩ | hfilled
      · rw [hfilled]
        rcases ih input with hsame | ⟨later, hlater, hname, hgains⟩
        · exact .inl hsame
        · exact .inr ⟨later, List.mem_cons_of_mem _ hlater, hname, hgains⟩
      · rw [isGiven_eq_false_iff] at hmissing
        rw [hfilled]
        rcases ih (input.insert parameter.name value) with
          hsame | ⟨later, hlater, rfl, hgains⟩
        · by_cases hname : name = parameter.name
          · subst hname
            rw [Dict.find?_insert_self] at hsame
            exact .inr ⟨parameter, List.mem_cons_self, rfl, hmissing, value,
              hdefault, hsame⟩
          · rw [Dict.find?_insert_of_ne hname] at hsame
            exact .inl hsame
        · -- A later parameter of the same name meets the same absence.
          have hbefore : input.find? later.name = none ∨
              input.find? later.name = some .null := by
            by_cases hname : later.name = parameter.name
            · rw [hname]
              exact hmissing
            · rw [← Dict.find?_insert_of_ne hname input value]
              exact hgains.missing
          exact .inr ⟨later, List.mem_cons_of_mem _ hlater, rfl, hbefore,
            hgains.default⟩
      · exact .inl (by rw [hfilled])

/-! ## The bindings -/

/-- The names under which a definition keeps outputs of other skills. -/
def Definition.keptNames : Definition → List String
  | .hybrid value => value.skills.map SubSkill.key
  | .prompt _ | .workflow _ | .tool _ => []

theorem Workflow.bindings_runSteps (workflow : Workflow) (context : Context)
    (steps : List Step) (progress : Progress) (world : σ) :
    let ran := workflow.runSteps backends context steps progress world
    ran.value.2.state.bindings = progress.state.bindings := by
  induction steps generalizing progress world with
  | nil => rfl
  | cons step steps ih =>
      cases hvalue : (step.run backends workflow context progress.results
        world).value with
      | ok output =>
          rw [runSteps_of_ok hvalue]
          exact ih _ _
      | error failure =>
          by_cases honError : workflow.onError = .carryOn
          · rw [runSteps_of_skip hvalue honError]
            exact ih _ _
          · rw [runSteps_of_abort hvalue honError]
            rfl

theorem Workflow.bindings_handOver (workflow : Workflow) (context : Context)
    (reached : Except Failure Unit × Progress) :
    (workflow.handOver context reached).2.state.bindings =
      reached.2.state.bindings := by
  obtain ⟨_ | _, progress⟩ := reached
  · rfl
  · rfl

/-- Each entry keeps its output under its own name. -/
theorem Hybrid.bindings_runEntries (runSkill : Runner σ)
    (total position : Nat) {entries : List SubSkill} {name : String}
    (hname : name ∉ entries.map SubSkill.key) (context : Context) (world : σ) :
    let ran := runEntries runSkill total position entries context world
    ran.value.2.state.bindings.find? name =
      context.state.bindings.find? name := by
  induction entries generalizing position context world with
  | nil => rfl
  | cons entry entries ih =>
      have hentry : name ≠ entry.key := List.ne_of_not_mem_cons hname
      have hlater := List.not_mem_of_not_mem_cons hname
      cases hsuccess : (runSkill entry.skill (context.childFor entry)
          world).value.1.success with
      | false =>
          rw [runEntries_of_failure hsuccess]
          rfl
      | true =>
          rw [runEntries_of_success hsuccess]
          intro ran
          have hrest := ih (position + 1) hlater
            (context.behind entry
              (runSkill entry.skill (context.childFor entry) world).value.1)
            (runSkill entry.skill (context.childFor entry) world).world
          exact hrest.trans (Dict.find?_insert_of_ne hentry _ _)

theorem Hybrid.bindings_handOver (hybrid : Hybrid)
    (reached : Except Failure (List Json) × Context) :
    (hybrid.handOver reached).2.state.bindings = reached.2.state.bindings := by
  obtain ⟨_ | _, context⟩ := reached
  · rfl
  · rfl

/-- What a definition leaves alone in the state that it works in. -/
structure Definition.KeepsBindings (definition : Definition)
    (before after : ExecutionState) : Prop where
  all : (∀ hybrid, definition ≠ .hybrid hybrid) →
    after.bindings = before.bindings
  others : ∀ name, name ∉ definition.keptNames →
    after.bindings.find? name = before.bindings.find? name

theorem Definition.KeepsBindings.of_eq {definition : Definition}
    {before after : ExecutionState} (h : after.bindings = before.bindings) :
    definition.KeepsBindings before after :=
  ⟨fun _ => h, fun _ _ => by rw [h]⟩

theorem Definition.keepsBindings_run (runSkill : Hybrid.Runner σ)
    (definition : Definition) (context : Context) (world : σ) :
    let ran := definition.run backends runSkill context world
    definition.KeepsBindings context.state ran.value.2.state := by
  cases definition with
  | prompt value =>
      apply KeepsBindings.of_eq
      simp only [run, Prompt.run, Run.bind_apply]
      cases (backends.generate context
          (Template.fill value.template context.input) value.systemPrompt
          value.model world).value with
      | ok output => rfl
      | error failure => rfl
  | workflow value =>
      apply KeepsBindings.of_eq
      rw [run, Workflow.dispatch_apply, Workflow.bindings_handOver]
      exact value.bindings_runSteps context value.steps ⟨context.state, []⟩
        world
  | tool value => exact .of_eq rfl
  | hybrid value =>
      constructor
      case all =>
        intro hother
        exact absurd rfl (hother value)
      case others =>
        intro name hname
        rw [run, Hybrid.dispatch_apply, Hybrid.bindings_handOver]
        exact Hybrid.bindings_runEntries runSkill value.skills.length 0 hname
          context world

/-! ## The outputs of steps -/

theorem Workflow.stepOutputs_handOver {workflow : Workflow} {context : Context}
    {reached : Except Failure Unit × Progress} {done : Dispatched}
    (hdone : (workflow.handOver context reached).1 = .ok done) :
    (workflow.handOver context reached).2.state.stepOutputs = [] := by
  obtain ⟨_ | _, progress⟩ := reached
  · simp [handOver] at hdone
  · rfl

theorem Hybrid.stepOutputs_handOver (hybrid : Hybrid)
    (reached : Except Failure (List Json) × Context) :
    (hybrid.handOver reached).2.state.stepOutputs =
      reached.2.state.stepOutputs := by
  obtain ⟨_ | _, context⟩ := reached
  · rfl
  · rfl

/-- Where no outputs of steps are held, a definition that succeeds holds none
afterwards. -/
theorem Definition.stepOutputs_run {runSkill : Hybrid.Runner σ}
    {definition : Definition} {context : Context} {world : σ}
    {done : Dispatched}
    (hdone : (definition.run backends runSkill context world).value.1 =
      .ok done)
    (hempty : context.state.stepOutputs = []) :
    (definition.run backends runSkill context world).value.2.state.stepOutputs =
      [] := by
  cases definition with
  | prompt value =>
      simp only [run, Prompt.run, Run.bind_apply]
      cases (backends.generate context
          (Template.fill value.template context.input) value.systemPrompt
          value.model world).value with
      | ok output => exact hempty
      | error failure => exact hempty
  | workflow value =>
      rw [run, Workflow.dispatch_apply] at hdone ⊢
      exact Workflow.stepOutputs_handOver hdone
  | tool value => exact hempty
  | hybrid value =>
      rw [run, Hybrid.dispatch_apply, Hybrid.stepOutputs_handOver,
        Hybrid.stepOutputs_runEntries]
      exact hempty

namespace Skill

theorem bindings_conclude (before : UInt64)
    (outcome : Except Failure Dispatched × Context) :
    (conclude before outcome).2.state.bindings = outcome.2.state.bindings := by
  obtain ⟨_ | _, context⟩ := outcome
  · rfl
  · rfl

/-- Whatever the end of a skill is, no outputs of steps are left. -/
theorem stepOutputs_run (runSkill : Hybrid.Runner σ) (skill : Skill)
    (context : Context) (world : σ) :
    (skill.run backends runSkill context world).value.2.state.stepOutputs =
      [] := by
  rcases run_cases backends runSkill skill context world with
    ⟨failure, -, hran⟩ | ⟨-, hran⟩
  · rw [hran]
    rfl
  · rw [hran]
    set inner := skill.definition.run backends runSkill (skill.prepared context)
      world with hinner
    have hleft : ∀ done, inner.value.1 = .ok done →
        inner.value.2.state.stepOutputs = [] :=
      fun _ hdone => Definition.stepOutputs_run hdone rfl
    rcases hvalue : inner.value with ⟨outcome, reached⟩
    rw [hvalue] at hleft
    cases outcome with
    | ok done => exact hleft done rfl
    | error failure => rfl

/-! ## The context as a whole -/

/-- How the context that a skill leaves stands to the one that it was given. -/
structure Footprint (skill : Skill) (before after : Context) : Prop where
  environment : after.environment = before.environment
  aiConfig : after.aiConfig = before.aiConfig
  /-- The input gains defaults of the skill's own parameters. -/
  input : ∀ name, after.input.find? name = before.input.find? name ∨
    ∃ parameter ∈ skill.parameters, parameter.name = name ∧
      parameter.FilledIn before.input after.input
  inputOfTool : ∀ use, skill.definition = .tool use →
    after.input = before.input
  inputOfHybrid : ∀ hybrid, skill.definition = .hybrid hybrid →
    after.input = before.input
  /-- Only a hybrid binds anything. -/
  bindings : (∀ hybrid, skill.definition ≠ .hybrid hybrid) →
    after.state.bindings = before.state.bindings
  /-- A hybrid binds nothing but the keys of its entries. -/
  bindingsOfHybrid : ∀ hybrid, skill.definition = .hybrid hybrid →
    ∀ name, name ∉ hybrid.skills.map SubSkill.key →
      after.state.bindings.find? name = before.state.bindings.find? name
  stepOutputs : after.state.stepOutputs = []

theorem keepsBindings_run (runSkill : Hybrid.Runner σ) (skill : Skill)
    (context : Context) (world : σ) :
    skill.definition.KeepsBindings context.state
      (skill.run backends runSkill context world).value.2.state := by
  rcases run_cases backends runSkill skill context world with
    ⟨failure, -, hran⟩ | ⟨-, hran⟩
  · rw [hran]
    exact .of_eq (bindings_conclude _ _)
  · have hinner : skill.definition.KeepsBindings (skill.prepared context).state
        (skill.definition.run backends runSkill (skill.prepared context)
          world).value.2.state :=
      skill.definition.keepsBindings_run runSkill (skill.prepared context) world
    rw [hran]
    constructor
    case all =>
      intro hother
      rw [bindings_conclude]
      exact hinner.all hother
    case others =>
      intro name hname
      rw [bindings_conclude]
      exact hinner.others name hname

theorem footprint_run (runSkill : Hybrid.Runner σ) (skill : Skill)
    (context : Context) (world : σ) :
    skill.Footprint context
      (skill.run backends runSkill context world).value.2 := by
  set left := (skill.run backends runSkill context world).value.2 with hrun
  have hleft : left = (skill.prepared context).withState left.state :=
    skill.context_run backends runSkill context world
  have hbindings : skill.definition.KeepsBindings context.state left.state :=
    skill.keepsBindings_run runSkill context world
  have hinput : left.input = (skill.prepared context).input := by
    rw [hleft]
    rfl
  have hkept (hnone : skill.parameters = []) : left.input = context.input := by
    rw [hinput, prepared, hnone]
    rfl
  constructor
  case environment =>
    rw [hleft]
    rfl
  case aiConfig =>
    rw [hleft]
    rfl
  case input =>
    intro name
    rw [hinput]
    exact filledIn_applyParameters skill.parameters context.input name
  case inputOfTool =>
    intro use hdefinition
    apply hkept
    rw [parameters, hdefinition]
  case inputOfHybrid =>
    intro hybrid hdefinition
    apply hkept
    rw [parameters, hdefinition]
  case bindings => exact hbindings.all
  case bindingsOfHybrid =>
    intro hybrid hdefinition name hname
    apply hbindings.others name
    rw [hdefinition]
    exact hname
  case stepOutputs => exact skill.stepOutputs_run runSkill context world

end Skill

/-! ## Executions -/

/-- What an execution does to the context that it is given. -/
structure KeepsContext (backends : Backends σ) (skills : Dict Skill)
    (levels : Nat) (id : String) (context : Context) (world : σ) : Prop where
  /-- An id that is unknown or names a skill that is disabled, nested too deep
  or invalid is turned away, and the whole context stays. -/
  refused : (∀ skill, skills.find? id = some skill →
      skill.enabled = false ∨ levels = 0 ∨ skill.validate ≠ []) →
    let ran := executeWithin backends skills levels id context world
    ran.value.1.success = false ∧ ran.value.2 = context
  /-- Any other skill leaves its footprint, whether it succeeds or fails. -/
  footprint : ∀ skill, skills.find? id = some skill →
    skill.enabled = true → levels ≠ 0 → skill.validate = [] →
      skill.Footprint context
        (executeWithin backends skills levels id context world).value.2
  /-- Tokens are added and never taken away. -/
  tokens : let ran := executeWithin backends skills levels id context world
    context.HasRoomFor ran.events →
      context.state.tokensUsed ≤ ran.value.2.state.tokensUsed

theorem executeWithin_keeps_context (backends : Backends σ)
    (skills : Dict Skill) (levels : Nat) (id : String) (context : Context)
    (world : σ) :
    KeepsContext backends skills levels id context world := by
  constructor
  case refused =>
    intro hchecks ran
    rcases executeWithin_cases backends skills levels id context world with
      ⟨failure, -, hran⟩ | ⟨skill, left, hfind, rfl, haccepted, -⟩
    · rw [show ran = _ from hran]
      exact ⟨rfl, rfl⟩
    · obtain ⟨henabled, hlevels, hvalid⟩ := Skill.refusal?_eq_none.mp haccepted
      rcases hchecks skill hfind with hdisabled | hdeep | hinvalid
      · simp [henabled] at hdisabled
      · exact absurd hdeep hlevels
      · exact absurd hvalid hinvalid
  case footprint =>
    intro skill hfind henabled hlevels hvalid
    obtain ⟨left, rfl⟩ := Nat.exists_eq_succ_of_ne_zero hlevels
    have haccepted : skill.refusal? (left + 1) id = none :=
      Skill.refusal?_eq_none.mpr ⟨henabled, hlevels, hvalid⟩
    rw [executeWithin_of_accepted hfind haccepted]
    exact skill.footprint_run _ context world
  case tokens =>
    intro ran (hroom : context.HasRoomFor ran.events)
    obtain ⟨hcharged, -⟩ :=
      executeWithin_tokens backends skills levels id context world
    rw [hcharged, UInt64.le_iff_toNat_le, hroom.toNat_add]
    exact Nat.le_add_right _ _

/-- The hybrid of two entries that breaks off at the second, in a context that
holds something everywhere: the first entry has bound its output, what was bound
before stays, and the outputs of steps are gone.  A call of an unknown id in the
same context leaves all of it. -/
theorem interrupted_keeps_context :
    let held : ExecutionState :=
      ⟨[("draft", .null)], [("earlier", .string "sun")], some "draft", 7⟩
    let context := Hybrid.rain.withState held
    let run := fun id => executeWithin Hybrid.echoing Hybrid.sayingSkills
      (maxDepth + 1) id context Scripted.World.empty
    let left := (run "outer").value.2
    (run "outer").value.1.success = false ∧
      left.environment = context.environment ∧ left.input = context.input ∧
      left.state.bindings.find? "earlier" = some (.string "sun") ∧
      left.state.bindings.names = ["earlier", "say"] ∧
      left.state.stepOutputs = [] ∧ 7 ≤ left.state.tokensUsed ∧
      (run "gone").value.2 = context := by
  intro held context run left
  have hkeeps : ∀ id, KeepsContext Hybrid.echoing Hybrid.sayingSkills
      (maxDepth + 1) id context Scripted.World.empty :=
    fun id => executeWithin_keeps_context Hybrid.echoing Hybrid.sayingSkills
      (maxDepth + 1) id context Scripted.World.empty
  have hfails : (run "outer").value.1.success = false := by decide
  have hnames : left.state.bindings.names = ["earlier", "say"] := by decide
  have hroom : context.HasRoomFor (run "outer").events := by
    unfold Context.HasRoomFor
    decide
  have hfootprint : ((Definition.hybrid Hybrid.interrupted).skill "outer"
      "Outer" "Outer" .custom []).Footprint context left :=
    (hkeeps "outer").footprint _ rfl rfl (by decide) (by decide)
  have hinput : left.input = context.input :=
    hfootprint.inputOfHybrid Hybrid.interrupted rfl
  have hearlier : left.state.bindings.find? "earlier" =
      context.state.bindings.find? "earlier" :=
    hfootprint.bindingsOfHybrid Hybrid.interrupted rfl "earlier" (by decide)
  have htokens : context.state.tokensUsed ≤ left.state.tokensUsed :=
    (hkeeps "outer").tokens hroom
  have hgone : (run "gone").value.1.success = false ∧
      (run "gone").value.2 = context := by
    apply (hkeeps "gone").refused
    intro skill hfind
    exact absurd hfind nofun
  exact ⟨hfails, hfootprint.environment, hinput, hearlier, hnames,
    hfootprint.stepOutputs, htokens, hgone.2⟩

end SkillEngine
