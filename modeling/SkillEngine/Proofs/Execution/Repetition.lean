import SkillEngine.Proofs.Execution.Alike
import SkillEngine.Proofs.Execution.Tokens
import SkillEngine.Proofs.Skill.Parameters

/-!
# Executions forget

An execution leaves a context behind in which its state can be read: outputs of
steps and sub-skills, the current step, the tokens spent, and an input in which
defaults are filled in.  The next execution takes nothing from it.  What is in
the state is never read, and filling in the defaults a second time changes
nothing.

The tokens alone are counted on from the state; the figure that a result shows
is a difference, which is the same as long as the counter does not overflow.
-/

namespace SkillEngine

variable {σ : Type} {backends : Backends σ} {skills : Dict Skill}

/-! ## What an execution leaves of its context -/

theorem Prompt.context_run (backends : Backends σ) (prompt : Prompt)
    (context : Context) (world : σ) :
    let left := (prompt.run backends context world).value.2
    left = context.withState left.state := by
  simp only [run, Run.bind_apply]
  cases (backends.generate context
      (Template.fill prompt.template context.input) prompt.systemPrompt
      prompt.model world).value with
  | ok output => rfl
  | error failure => rfl

theorem Workflow.context_handOver (workflow : Workflow) (context : Context)
    (reached : Except Failure Unit × Progress) :
    let left := (workflow.handOver context reached).2
    left = context.withState left.state := by
  obtain ⟨_ | _, progress⟩ := reached
  · rfl
  · rfl

theorem Hybrid.context_runEntries (runSkill : Hybrid.Runner σ)
    (total position : Nat) (entries : List SubSkill) (context : Context)
    (world : σ) :
    let ran := runEntries runSkill total position entries context world
    let left := ran.value.2
    left = context.withState left.state := by
  induction entries generalizing position context world with
  | nil => rfl
  | cons entry entries ih =>
      cases hsuccess : (runSkill entry.skill (context.childFor entry)
          world).value.1.success with
      | false =>
          rw [runEntries_of_failure hsuccess]
          rfl
      | true =>
          rw [runEntries_of_success hsuccess]
          exact ih _ _ _

theorem Hybrid.context_handOver (hybrid : Hybrid)
    (reached : Except Failure (List Json) × Context) :
    let left := (hybrid.handOver reached).2
    left = reached.2.withState left.state := by
  obtain ⟨_ | _, context⟩ := reached
  · rfl
  · rfl

theorem Definition.context_run (backends : Backends σ)
    (runSkill : Hybrid.Runner σ) (definition : Definition) (context : Context)
    (world : σ) :
    let left := (definition.run backends runSkill context world).value.2
    left = context.withState left.state := by
  cases definition with
  | prompt value => exact value.context_run backends context world
  | workflow value =>
      rw [run, Workflow.dispatch_apply]
      exact value.context_handOver context _
  | tool value => rfl
  | hybrid value =>
      rw [run, Hybrid.dispatch_apply]
      have hentries := Hybrid.context_runEntries runSkill value.skills.length 0
        value.skills context world
      have hleft := value.context_handOver (Hybrid.runEntries runSkill
        value.skills.length 0 value.skills context world).value
      rw [hentries] at hleft
      exact hleft

theorem Skill.context_run (backends : Backends σ) (runSkill : Hybrid.Runner σ)
    (skill : Skill) (context : Context) (world : σ) :
    let left := (skill.run backends runSkill context world).value.2
    left = (skill.prepared context).withState left.state := by
  have hconclude : ∀ outcome : Except Failure Dispatched × Context,
      let left := (conclude context.state.tokensUsed outcome).2
      left = outcome.2.withState left.state := by
    rintro ⟨_ | _, reached⟩
    · rfl
    · rfl
  rcases run_cases backends runSkill skill context world with
    ⟨failure, -, hran⟩ | ⟨-, hran⟩
  · rw [hran]
    exact hconclude _
  · rw [hran]
    have hinner := skill.definition.context_run backends runSkill
      (skill.prepared context) world
    have hleft := hconclude (skill.definition.run backends runSkill
      (skill.prepared context) world).value
    rw [hinner] at hleft
    exact hleft

/-- After an execution the skill begins as it began before. -/
theorem startsAlike_again (backends : Backends σ) (levels : Nat) {id : String}
    {skill : Skill} (hfind : skills.find? id = some skill) (context : Context)
    (world : σ) :
    skill.StartsAlike context
      (executeWithin backends skills levels id context world).value.2 := by
  rcases executeWithin_cases backends skills levels id context world with
    ⟨failure, -, hran⟩ | ⟨found, left, hfound, -, haccepted, hran⟩
  · rw [hran]
    exact ⟨rfl, rfl, rfl⟩
  · obtain rfl : skill = found := Option.some.inj (hfind.symm.trans hfound)
    have hvalid := (Skill.refusal?_eq_none.mp haccepted).2.2
    have hfilled := applyParameters_applyParameters
      (Skill.nodup_parameters hvalid) context.input
    rw [hran, skill.context_run]
    exact ⟨hfilled.symm, rfl, rfl⟩

/-! ## Backends without memory -/

/-- The event is no line of the log. -/
def Event.isAction : Event → Bool
  | .logged _ => false
  | _ => true

/-- Every answer depends on the request alone.  A tool may still log what it
remembers. -/
structure Backends.Stateless (backends : Backends σ) : Prop where
  generators : ∀ generator ∈ backends.router.generators,
    ∀ request world other,
      (generator.answer request world).1 = (generator.answer request other).1
  tools : ∀ tool parameters context world other,
    let ran := backends.tools.invoke tool parameters context world
    let again := backends.tools.invoke tool parameters context other
    ran.value = again.value ∧
      ran.events.filter Event.isAction = again.events.filter Event.isAction

theorem Backends.Stateless.answersAlike (h : backends.Stateless) :
    backends.AnswersAlike Event.isAction (fun _ _ => True) where
  generators := by
    intro generator hgenerator request world other _
    exact ⟨h.generators generator hgenerator request world other, trivial⟩
  tools := by
    intro tool parameters context world other _
    obtain ⟨hvalue, hactions⟩ := h.tools tool parameters context world other
    exact ⟨hvalue, hactions, trivial⟩

/-- A host has no memory when the tools of its plugins have none. -/
theorem Backends.stateless_of_host {router : Router σ} {host : Host σ}
    (hgenerators : ∀ generator ∈ router.generators, ∀ request world other,
      (generator.answer request world).1 = (generator.answer request other).1)
    (htools : ∀ plugin ∈ host.plugins.values, ∀ tool ∈ plugin.tools,
      ∀ parameters context world other,
        (tool.handle parameters context world).value =
          (tool.handle parameters context other).value) :
    Backends.Stateless ⟨router, host⟩ where
  generators := hgenerators
  tools := by
    intro tool parameters context world other ran again
    have hsilent : ∀ log : List LogLine,
        (log.map Event.logged).filter Event.isAction = [] := by
      intro log
      simp [Event.isAction]
    have halike : Run.Alike Event.isAction (fun _ _ => True) Eq
        (host.invoke tool parameters context)
        (host.invoke tool parameters context) := by
      apply Host.alike_invoke
      intro plugin hplugin tool htool parameters context world other _ answer
        second
      refine ⟨htools plugin hplugin tool htool parameters context world other,
        ?_, trivial⟩
      rw [hsilent, hsilent]
    obtain ⟨hvalue, hactions, -⟩ := halike world other trivial
    exact ⟨hvalue, hactions⟩

/-! ## The course of two executions -/

/-- The counter of the context does not overflow by the events. -/
def Context.HasRoomFor (context : Context) (events : List Event) : Prop :=
  context.state.tokensUsed.toNat + totalCost events < 2 ^ 64

theorem Context.HasRoomFor.toNat_wordCost {context : Context}
    {events : List Event} (h : context.HasRoomFor events) :
    (wordCost events).toNat = totalCost events := by
  rw [wordCost, UInt64.toNat_ofNat']
  exact Nat.mod_eq_of_lt (by unfold HasRoomFor at h; omega)

/-- The count after the events is the count before them and what they cost. -/
theorem Context.HasRoomFor.toNat_add {context : Context}
    {events : List Event} (h : context.HasRoomFor events) :
    (context.state.tokensUsed + wordCost events).toNat =
      context.state.tokensUsed.toNat + totalCost events := by
  rw [UInt64.toNat_add, h.toNat_wordCost]
  exact Nat.mod_eq_of_lt h

/-- As long as the counter does not overflow, the figure for the tokens does not
depend on where the count began. -/
theorem Context.HasRoomFor.shownTokens {context : Context}
    {events : List Event} (h : context.HasRoomFor events) :
    Skill.shownTokens context.state.tokensUsed
        (context.state.tokensUsed + wordCost events) =
      if wordCost events = 0 then none else some (wordCost events) := by
  have hcost := h.toNat_wordCost
  have hsum := h.toNat_add
  rw [Skill.shownTokens]
  by_cases hfree : wordCost events = 0
  · simp [hfree]
  · have hpos : (wordCost events).toNat ≠ 0 := fun hzero =>
      hfree (UInt64.toNat_inj.mp hzero)
    have hspent : context.state.tokensUsed <
        context.state.tokensUsed + wordCost events := by
      rw [UInt64.lt_iff_toNat_lt, hsum]
      omega
    rw [if_pos hspent, if_neg hfree, UInt64.add_comm, UInt64.add_sub_cancel]

/-- What two executions have in common, the first of which begins in the first
context and the second in the second. -/
structure SameCourse (heard : Event → Bool) (first second : Context)
    (ran other : Ran σ (SkillResult × Context)) : Prop where
  /-- They report the same. -/
  events : ran.events.filter heard = other.events.filter heard
  /-- They have the same result, apart from the figure for the tokens. -/
  uncounted : ran.value.1.uncounted = other.value.1.uncounted
  /-- When no counter overflows, this figure is the same, too. -/
  counted : first.HasRoomFor ran.events → second.HasRoomFor other.events →
    ran.value.1 = other.value.1

theorem sameCourse_executeWithin {heard : Event → Bool} {alike : σ → σ → Prop}
    (hanswers : backends.AnswersAlike heard alike) (levels : Nat) {id : String}
    {first second : Context}
    (hstart : ∀ skill, skills.find? id = some skill →
      skill.StartsAlike first second)
    {world other : σ} (hworlds : alike world other) :
    let ran := executeWithin backends skills levels id first world
    let again := executeWithin backends skills levels id second other
    SameCourse heard first second ran again ∧ alike ran.world again.world := by
  intro ran again
  obtain ⟨hends, hevents, hafter⟩ :=
    alike_executeWithin hanswers skills levels hstart world other hworlds
  refine ⟨⟨hevents, hends.uncounted, ?_⟩, hafter⟩
  intro hfirst hsecond
  have hcharged : ran.value.2.state.tokensUsed =
      first.state.tokensUsed + wordCost ran.events :=
    (executeWithin_tokens backends skills levels id first world).1
  have hrecharged : again.value.2.state.tokensUsed =
      second.state.tokensUsed + wordCost again.events :=
    (executeWithin_tokens backends skills levels id second other).1
  have hahead : again.value.2.state.tokensUsed =
      ran.value.2.state.tokensUsed +
        (second.state.tokensUsed - first.state.tokensUsed) := hends.tokensUsed
  have hspent : wordCost ran.events = wordCost again.events := by
    rw [hcharged, hrecharged] at hahead
    grind
  apply hends.counted
  have hshown := hfirst.shownTokens
  have hshownAgain := hsecond.shownTokens
  rw [← hcharged, hspent] at hshown
  rw [← hrecharged] at hshownAgain
  exact hshown.trans hshownAgain.symm

/-- What an execution owes to those before it. -/
structure Forgets (backends : Backends σ) (skills : Dict Skill) (id : String)
    (context : Context) (world : σ) : Prop where
  /-- The state in which it begins makes no difference when the backends behave
  alike, as they do in one and the same world. -/
  ofState : ∀ heard alike, backends.AnswersAlike heard alike →
    ∀ state other, alike world other →
      let ran := execute backends skills id context world
      let again := execute backends skills id (context.withState state) other
      SameCourse heard context (context.withState state) ran again ∧
        alike ran.world again.world
  /-- When the backends have no memory, an execution in the context and the
  world that another one has left, be it a failed one, repeats it. -/
  ofHistory : backends.Stateless →
    let ran := execute backends skills id context world
    let again := execute backends skills id ran.value.2 ran.world
    SameCourse Event.isAction context ran.value.2 ran again

/-- Nothing leaks from one execution into the next. -/
theorem execute_forgets (backends : Backends σ) (skills : Dict Skill)
    (id : String) (context : Context) (world : σ) :
    Forgets backends skills id context world := by
  constructor
  case ofState =>
    intro heard alike hanswers state other hworlds
    have hstart : ∀ skill, skills.find? id = some skill →
        skill.StartsAlike context (context.withState state) :=
      fun _ _ => ⟨rfl, rfl, rfl⟩
    exact sameCourse_executeWithin hanswers (maxDepth + 1) hstart hworlds
  case ofHistory =>
    intro hstateless ran again
    have hstart : ∀ skill, skills.find? id = some skill →
        skill.StartsAlike context ran.value.2 := by
      intro skill hfind
      exact startsAlike_again backends (maxDepth + 1) hfind context world
    exact (sameCourse_executeWithin hstateless.answersAlike (maxDepth + 1)
      hstart trivial).1

/-- A generator that repeats what it is asked needs no memory. -/
theorem stateless_echo (name : String) (number : Nat) :
    Backends.Stateless
      ⟨Router.empty.add (Scripted.echo name number), Host.empty.registry⟩ := by
  apply Backends.stateless_of_host
  · intro generator hgenerator request world other
    obtain rfl := List.mem_singleton.mp hgenerator
    rfl
  · intro plugin hplugin
    exact absurd hplugin List.not_mem_nil

/-- A hybrid that says a text twice and then comes to an entry that is not
registered.  It fails, and fails in the same way when it is run again in the
context that it has left, or in one with another count of tokens. -/
theorem interrupted_forgets :
    let say : Prompt :=
      ⟨Template.slot "text", [SkillLibrary.requiredText "text" "Text"], none,
        none⟩
    let entries : List SubSkill :=
      [⟨"say", none, none⟩, ⟨"say", some "again", none⟩, ⟨"gone", none, none⟩]
    let skills : Dict Skill :=
      [("say", (Definition.prompt say).skill "say" "Say" "Says it" .custom []),
        ("twice", (Definition.hybrid ⟨entries, ⟨.sequential, none⟩, none⟩).skill
          "twice" "Twice" "Says it twice" .custom [])]
    let context : Context :=
      ⟨[("text", .string "rain")], .empty, ⟨"mock", none⟩, ⟨[], [], none, 7⟩⟩
    let backends : Backends Scripted.World :=
      ⟨Router.empty.add (Scripted.echo "mock" 0), Host.empty.registry⟩
    let ran := execute backends skills "twice" context .empty
    let again := execute backends skills "twice" ran.value.2 ran.world
    let fresh := execute backends skills "twice" (context.withState .empty)
      .empty
    backends.Stateless ∧ ran.value.1.success = false ∧
      ran.value.2.state.tokensUsed = 307 ∧
      ran.value.1 = again.value.1 ∧
      ran.events.filter Event.isAction = again.events.filter Event.isAction ∧
      ran.value.1 = fresh.value.1 ∧ ran.world = fresh.world := by
  intro say entries skills context backends ran again fresh
  have hstateless : backends.Stateless := stateless_echo "mock" 0
  have hroom : context.HasRoomFor ran.events := by
    unfold Context.HasRoomFor
    decide
  have hroomAgain : ran.value.2.HasRoomFor again.events := by
    unfold Context.HasRoomFor
    decide
  have hroomFresh : (context.withState .empty).HasRoomFor fresh.events := by
    unfold Context.HasRoomFor
    decide
  have hforgets := execute_forgets backends skills "twice" context
    Scripted.World.empty
  have hagain : SameCourse Event.isAction context ran.value.2 ran again :=
    hforgets.ofHistory hstateless
  obtain ⟨hfresh, hworld⟩ : SameCourse (fun _ => true) context
      (context.withState .empty) ran fresh ∧ ran.world = fresh.world :=
    hforgets.ofState _ _ (backends.answersAlike_self _) .empty
      Scripted.World.empty rfl
  have hfails : ran.value.1.success = false := by decide
  have htokens : ran.value.2.state.tokensUsed = 307 := by decide
  have hrepeats := hagain.counted hroom hroomAgain
  have hrenews := hfresh.counted hroom hroomFresh
  exact ⟨hstateless, hfails, htokens, hrepeats, hagain.events, hrenews, hworld⟩

end SkillEngine
