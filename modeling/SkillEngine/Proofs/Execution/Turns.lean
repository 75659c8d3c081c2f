import SkillEngine.Proofs.Execution.Guard
import SkillEngine.Scripted.Generator
import SkillEngine.Skill.Library
import SkillEngine.Tool.Host

/-!
# The turns of a hybrid

A hybrid gives its entries their turns in the order in which it declares them,
until one fails.  A `Turn` is an entry together with the run of the skill that
it calls; `Turns` says that every turn begins in the world that the one before
it left, so a list of turns leaves out nothing that happened between them.

`runEntries_turns` finds the turns behind a run of entries, by induction on the
entries, and everything else is read off them.  How the wording of a failure
grows from level to level is followed along the calls in `Call.Descends`.
-/

namespace SkillEngine

variable {σ : Type}

/-! ## Turns -/

/-- An entry of a hybrid and the run of the skill that it calls. -/
structure Turn (σ : Type) where
  entry : SubSkill
  ran : Ran σ (SkillResult × Context)

namespace Turn

/-- The result of the skill. -/
def result (turn : Turn σ) : SkillResult := turn.ran.value.1

/-- The output that the hybrid takes over. -/
def output (turn : Turn σ) : Json := turn.result.output.getD .null

/-- The output under the name of its entry. -/
def binding (turn : Turn σ) : String × Json := (turn.entry.key, turn.output)

/-- What is reported in turns, the first of which has the given position. -/
def events (total : Nat) : Nat → List (Turn σ) → List Event
  | _, [] => []
  | position, turn :: turns =>
    .progressed position total turn.entry.skill ::
      (turn.ran.events ++ events total (position + 1) turns)

theorem exists_mem_of_call {total position : Nat} {turns : List (Turn σ)}
    {event : Event} (h : event ∈ events total position turns)
    (hcall : event.IsCall) : ∃ turn ∈ turns, event ∈ turn.ran.events := by
  induction turns generalizing position with
  | nil => simp [events] at h
  | cons turn turns ih =>
      rcases List.mem_cons.mp h with rfl | h
      · exact absurd hcall not_false
      · rcases List.mem_append.mp h with h | h
        · exact ⟨turn, List.mem_cons_self, h⟩
        · obtain ⟨later, hlater, hevent⟩ := ih h
          exact ⟨later, List.mem_cons_of_mem _ hlater, hevent⟩

end Turn

/-- The turns begin in the first world and end in the last.  Each calls the
skill of its entry, with an input made from that of the parent, in the world
that the turn before it left. -/
inductive Turns (runSkill : Hybrid.Runner σ) (parent : Context) :
    σ → List (Turn σ) → σ → Prop
  | nil (world : σ) : Turns runSkill parent world [] world
  | cons {world last : σ} {turn : Turn σ} {turns : List (Turn σ)}
      (hran : turn.ran =
        runSkill turn.entry.skill (parent.childFor turn.entry) world)
      (hnext : Turns runSkill parent turn.ran.world turns last) :
      Turns runSkill parent world (turn :: turns) last

/-- The inputs are made from the input of the parent alone. -/
theorem Turns.of_input {runSkill : Hybrid.Runner σ} {parent other : Context}
    (h : ∀ entry, parent.childFor entry = other.childFor entry)
    {world last : σ} {turns : List (Turn σ)}
    (hturns : Turns runSkill parent world turns last) :
    Turns runSkill other world turns last := by
  induction hturns with
  | nil world => exact .nil world
  | cons hran _ ih => exact .cons (h _ ▸ hran) ih

theorem Turns.exists_world {runSkill : Hybrid.Runner σ} {parent : Context}
    {world last : σ} {turns : List (Turn σ)}
    (hturns : Turns runSkill parent world turns last) {turn : Turn σ}
    (hturn : turn ∈ turns) :
    ∃ before, turn.ran =
      runSkill turn.entry.skill (parent.childFor turn.entry) before := by
  induction hturns with
  | nil world => simp at hturn
  | cons hran _ ih =>
      rcases List.mem_cons.mp hturn with rfl | hturn
      · exact ⟨_, hran⟩
      · exact ih hturn

/-! ## How the turns of a hybrid end -/

/-- All entries had their turns, and all of them succeeded. -/
structure Completes (entries : List SubSkill) (parent : Context)
    (turns : List (Turn σ))
    (value : Except Failure (List Json) × Context) : Prop where
  entries : turns.map (·.entry) = entries
  succeed : ∀ turn ∈ turns, turn.result.success = true
  outcome : value.1 = .ok (turns.map Turn.output)
  bindings : value.2.state.bindings =
    parent.state.bindings.insertAll (turns.map Turn.binding)

/-- The turns before the last one succeeded and the last one failed; the
entries behind it had none. -/
structure BreaksOff (entries : List SubSkill) (parent : Context)
    (earlier : List (Turn σ)) (failing : Turn σ)
    (value : Except Failure (List Json) × Context) : Prop where
  entries : ∃ later, earlier.map (·.entry) ++ failing.entry :: later = entries
  succeed : ∀ turn ∈ earlier, turn.result.success = true
  fails : failing.result.success = false
  outcome : value.1 = .error (failing.entry.failure failing.result)
  bindings : value.2.state.bindings =
    parent.state.bindings.insertAll (earlier.map Turn.binding)

theorem Completes.concluded {hybrid : Hybrid} {parent : Context}
    {turns : List (Turn σ)} {value : Except Failure (List Json) × Context}
    (h : Completes hybrid.skills parent turns value) (before : UInt64) :
    let concluded := Skill.conclude before (hybrid.handOver value)
    concluded.1.success = true ∧
      concluded.1.output =
        some (mergeOutputs (turns.map Turn.output) hybrid.merge) ∧
      concluded.2.state.bindings =
        parent.state.bindings.insertAll (turns.map Turn.binding) := by
  obtain ⟨outcome, context⟩ := value
  obtain rfl : outcome = .ok (turns.map Turn.output) := h.outcome
  exact ⟨rfl, rfl, h.bindings⟩

theorem BreaksOff.concluded {hybrid : Hybrid} {parent : Context}
    {earlier : List (Turn σ)} {failing : Turn σ}
    {value : Except Failure (List Json) × Context}
    (h : BreaksOff hybrid.skills parent earlier failing value)
    {reason : String} (hreason : failing.result.error = some reason)
    (before : UInt64) :
    let concluded := Skill.conclude before (hybrid.handOver value)
    concluded.1.success = false ∧
      concluded.1.error = some
        ("sub-skill " ++ failing.entry.skill ++ " failed: " ++ reason) ∧
      concluded.2.state.bindings =
        parent.state.bindings.insertAll (earlier.map Turn.binding) := by
  obtain ⟨outcome, context⟩ := value
  have houtcome := h.outcome
  rw [SubSkill.failure, hreason, Option.getD_some] at houtcome
  obtain rfl : outcome = .error (.subSkillFailed failing.entry.skill reason) :=
    houtcome
  exact ⟨rfl, rfl, h.bindings⟩

namespace Hybrid

variable {runSkill : Runner σ} {total : Nat}

/-- Behind a run of entries there are turns that account for all of it. -/
theorem runEntries_turns (position : Nat) (entries : List SubSkill)
    (context : Context) (world : σ) :
    let ran := runEntries runSkill total position entries context world
    ∃ turns, Turns runSkill context world turns ran.world ∧
      ran.events = Turn.events total position turns ∧
      (Completes entries context turns ran.value ∨
        ∃ earlier failing, turns = earlier ++ [failing] ∧
          BreaksOff entries context earlier failing ran.value) := by
  induction entries generalizing position context world with
  | nil =>
      refine ⟨[], .nil world, rfl, .inl ?_⟩
      exact ⟨rfl, by simp, rfl, rfl⟩
  | cons entry entries ih =>
      intro ran
      set turn : Turn σ :=
        ⟨entry, runSkill entry.skill (context.childFor entry) world⟩ with hturn
      cases hsuccess : turn.result.success with
      | false =>
          have hran : ran = ⟨(.error (entry.failure turn.result),
              (context.enter entry).charge turn.result),
            .progressed position total entry.skill :: turn.ran.events,
            turn.ran.world⟩ := runEntries_of_failure hsuccess
          rw [hran]
          refine ⟨[turn], .cons rfl (.nil _), ?_, .inr ⟨[], turn, rfl, ?_⟩⟩
          · simp [Turn.events, hturn]
          · exact ⟨⟨entries, rfl⟩, by simp, hsuccess, rfl, rfl⟩
      | true =>
          set next := context.behind entry turn.ran.value.1 with hnext
          obtain ⟨turns, hturns, hevents, hend⟩ :=
            ih (position + 1) next turn.ran.world
          set later := runEntries runSkill total (position + 1) entries next
            turn.ran.world with hlater
          have hran : ran = ⟨(later.value.1.map (turn.output :: ·),
              later.value.2),
            .progressed position total entry.skill ::
              (turn.ran.events ++ later.events), later.world⟩ :=
            runEntries_of_success hsuccess
          have hsame : ∀ other, next.childFor other = context.childFor other :=
            fun _ => rfl
          refine ⟨turn :: turns, ?_, ?_, ?_⟩
          · rw [hran]
            exact .cons rfl (hturns.of_input hsame)
          · rw [hran, hevents]
            rfl
          · rw [hran]
            rcases hend with hend | ⟨earlier, failing, rfl, hend⟩
            · refine .inl ⟨?_, ?_, ?_, hend.bindings⟩
              · rw [List.map_cons, hend.entries]
              · exact List.forall_mem_cons.mpr ⟨hsuccess, hend.succeed⟩
              · rw [hend.outcome]
                rfl
            · obtain ⟨rest, hrest⟩ := hend.entries
              refine .inr ⟨turn :: earlier, failing, rfl, ⟨rest, ?_⟩, ?_,
                hend.fails, ?_, hend.bindings⟩
              · rw [List.map_cons, List.cons_append, hrest]
              · exact List.forall_mem_cons.mpr ⟨hsuccess, hend.succeed⟩
              · rw [hend.outcome]
                rfl

end Hybrid

/-! ## Failures on their way up -/

/-- The wording of a failure that came up through sub-skills, the outermost
first. -/
def Failure.through (ids : List String) (reason : String) : String :=
  ids.foldr (fun id inner => (subSkillFailed id inner).message) reason

namespace Call

variable {backends : Backends σ} {skills : Dict Skill}

/-- A call that fails says why. -/
theorem exists_error {call : Call σ} (hfails : call.Fails backends skills) :
    ∃ reason, (call.run backends skills).value.1.error = some reason := by
  have hconclude : ∀ before value,
      (Skill.conclude before value).1.success = false →
      ∃ reason, (Skill.conclude before value).1.error = some reason := by
    rintro before ⟨_ | done, context⟩ hfailed
    · exact ⟨_, rfl⟩
    · simp [Skill.conclude] at hfailed
  unfold Fails at hfails
  rcases executeWithin_cases backends skills call.levels call.id call.context
    call.world with ⟨failure, -, hran⟩ | ⟨skill, left, -, -, -, hran⟩
  · exact ⟨failure.message, by rw [run, hran]; rfl⟩
  · rw [run, hran] at hfails ⊢
    rcases Skill.run_cases backends (executeWithin backends skills left) skill
      call.context call.world with ⟨failure, -, hrun⟩ | ⟨-, hrun⟩
    · rw [hrun] at hfails ⊢
      exact hconclude _ _ hfails
    · rw [hrun] at hfails ⊢
      exact hconclude _ _ hfails

/-- The first call comes to the second through hybrids.  The ids are those of
the calls behind the first, down to the second. -/
inductive Descends (backends : Backends σ) (skills : Dict Skill) :
    List String → Call σ → Call σ → Prop where
  | here (call : Call σ) : Descends backends skills [] call call
  | entry {levels : Nat} {id : String} {context : Context} {world : σ}
      {skill : Skill} {hybrid : Hybrid} {child inner : Call σ}
      {before : List Event} {ids : List String}
      (hfind : skills.find? id = some skill)
      (haccepted : skill.refusal? (levels + 1) id = none)
      (hdefinition : skill.definition = .hybrid hybrid)
      (hentered : Entered backends skills levels hybrid.skills.length 0
        hybrid.skills (skill.prepared context) world before child)
      (hinner : Descends backends skills ids child inner) :
      Descends backends skills (child.id :: ids) ⟨levels + 1, id, context, world⟩
        inner

/-- The failure of the entries is that of the call that fails. -/
theorem Entered.failure_of_fails {levels total position : Nat}
    {entries : List SubSkill} {context : Context} {world : σ}
    {before : List Event} {call : Call σ}
    (h : Entered backends skills levels total position entries context world
      before call)
    (hfails : call.Fails backends skills) :
    (Hybrid.runEntries (executeWithin backends skills levels) total position
      entries context world).value.1 =
      .error (.subSkillFailed call.id
        ((call.run backends skills).value.1.error.getD "")) := by
  induction h with
  | first =>
      rw [Hybrid.runEntries_of_failure hfails]
      rfl
  | later ran hran hsuccess hlater ih =>
      subst hran
      rw [Hybrid.runEntries_of_success hsuccess, ih hfails]
      rfl

/-- Each hybrid on the way up puts its own words before the reason. -/
theorem Descends.error_of_fails {ids : List String} {call inner : Call σ}
    (h : Descends backends skills ids call inner)
    (hfails : inner.Fails backends skills) {reason : String}
    (hreason : (inner.run backends skills).value.1.error = some reason) :
    call.Fails backends skills ∧
      (call.run backends skills).value.1.error =
        some (Failure.through ids reason) := by
  induction h with
  | here call => exact ⟨hfails, hreason⟩
  | entry hfind haccepted hdefinition hentered _ ih =>
      obtain ⟨hchild, herror⟩ := ih hfails hreason
      have hvalue := hentered.failure_of_fails hchild
      rw [herror, Option.getD_some] at hvalue
      rw [Fails, run_of_hybrid backends hfind haccepted hdefinition,
        ← Prod.eta (Hybrid.runEntries _ _ _ _ _ _).value, hvalue]
      exact ⟨rfl, rfl⟩

end Call

/-- A turn that fails says why. -/
theorem Turns.exists_error {backends : Backends σ} {skills : Dict Skill}
    {levels : Nat} {parent : Context} {world last : σ} {turns : List (Turn σ)}
    (hturns : Turns (executeWithin backends skills levels) parent world turns
      last)
    {turn : Turn σ} (hturn : turn ∈ turns)
    (hfails : turn.result.success = false) :
    ∃ reason, turn.result.error = some reason := by
  obtain ⟨before, hran⟩ := hturns.exists_world hturn
  rw [Turn.result, hran] at hfails ⊢
  set call : Call σ :=
    ⟨levels, turn.entry.skill, parent.childFor turn.entry, before⟩
  have hcall : call.Fails backends skills := hfails
  exact Call.exists_error hcall

/-! ## The run of a hybrid -/

/-- A hybrid declares no parameters, so its entries see the input as it is. -/
theorem Skill.childFor_prepared {skill : Skill} {hybrid : Hybrid}
    (hdefinition : skill.definition = .hybrid hybrid) (context : Context)
    (entry : SubSkill) :
    (skill.prepared context).childFor entry = context.childFor entry := by
  simp [Context.childFor, Context.fork, Skill.prepared, Context.withOutputs,
    Skill.parameters, hdefinition, applyParameters]

/-- A hybrid that runs gives its entries their turns in order.  Every call of a
backend is made in one of them.  When all succeed, their outputs are combined;
otherwise the failure of the last turn is that of the hybrid, which keeps the
outputs of the turns before.  However deep the failing skill lies, every level
above it is named in the failure. -/
theorem executeWithin_gives_turns (backends : Backends σ)
    {skills : Dict Skill} {levels : Nat} {id : String} {skill : Skill}
    {hybrid : Hybrid}
    (hfind : skills.find? id = some skill)
    (haccepted : skill.refusal? (levels + 1) id = none)
    (hdefinition : skill.definition = .hybrid hybrid)
    (context : Context) (world : σ) :
    let ran := executeWithin backends skills (levels + 1) id context world
    let result := ran.value.1
    let bindings := ran.value.2.state.bindings
    (∃ turns,
      Turns (executeWithin backends skills levels) context world turns
        ran.world ∧
      ran.events = hybrid.modeEvents ++
        Turn.events hybrid.skills.length 0 turns ∧
      (∀ event ∈ ran.events, event.IsCall →
        ∃ turn ∈ turns, event ∈ turn.ran.events) ∧
      ((turns.map (·.entry) = hybrid.skills ∧
          (∀ turn ∈ turns, turn.result.success = true) ∧
          result.success = true ∧
          result.output =
            some (mergeOutputs (turns.map Turn.output) hybrid.merge) ∧
          bindings =
            context.state.bindings.insertAll (turns.map Turn.binding)) ∨
        ∃ earlier failing later reason,
          turns = earlier ++ [failing] ∧
          earlier.map (·.entry) ++ failing.entry :: later = hybrid.skills ∧
          (∀ turn ∈ earlier, turn.result.success = true) ∧
          failing.result.success = false ∧
          failing.result.error = some reason ∧
          result.success = false ∧
          result.error = some
            ("sub-skill " ++ failing.entry.skill ++ " failed: " ++ reason) ∧
          bindings =
            context.state.bindings.insertAll (earlier.map Turn.binding))) ∧
    ∀ ids inner reason,
      Call.Descends backends skills ids ⟨levels + 1, id, context, world⟩
        inner →
      inner.Fails backends skills →
      (inner.run backends skills).value.1.error = some reason →
      result.success = false ∧
        result.error = some (Failure.through ids reason) := by
  intro ran result bindings
  refine ⟨?_, fun ids inner reason hdescends hfails hreason =>
    hdescends.error_of_fails hfails hreason⟩
  set runSkill := executeWithin backends skills levels with hrunSkill
  set entries := Hybrid.runEntries runSkill hybrid.skills.length 0
    hybrid.skills (skill.prepared context) world with hentries
  have hran : ran = ⟨Skill.conclude context.state.tokensUsed
      (hybrid.handOver entries.value), hybrid.modeEvents ++ entries.events,
      entries.world⟩ :=
    Call.run_of_hybrid backends hfind haccepted hdefinition context world
  obtain ⟨turns, hturns, hevents, hend⟩ := Hybrid.runEntries_turns 0
    hybrid.skills (skill.prepared context) world
  have hturns : Turns runSkill context world turns entries.world :=
    hturns.of_input (skill.childFor_prepared hdefinition context)
  refine ⟨turns, ?_, ?_, ?_, ?_⟩
  · rw [hran]
    exact hturns
  · rw [hran, hevents]
  · intro event hevent hcall
    rw [hran] at hevent
    rcases List.mem_append.mp hevent with hmode | hevent
    · exact absurd hcall (Hybrid.not_call_of_modeEvents hmode)
    · exact Turn.exists_mem_of_call (hevents ▸ hevent) hcall
  · simp only [result, bindings, hran]
    rcases hend with hend | ⟨earlier, failing, rfl, hend⟩
    · exact .inl ⟨hend.entries, hend.succeed, hend.concluded _⟩
    · right
      obtain ⟨later, hlater⟩ := hend.entries
      obtain ⟨reason, hreason⟩ := hturns.exists_error
        (List.mem_append_right earlier (List.mem_singleton_self failing))
        hend.fails
      exact ⟨earlier, failing, later, reason, rfl, hlater, hend.succeed,
        hend.fails, hreason, hend.concluded hreason _⟩

/-- A hybrid says a text and then calls a hybrid that comes to a skill that is
not registered.  The third entry has no turn, the failure names both levels, and
the first output is kept. -/
theorem interrupted_gives_turns :
    let say : Prompt :=
      ⟨Template.slot "text", [SkillLibrary.requiredText "text" "Text"], none,
        none⟩
    let inner : Hybrid :=
      ⟨[⟨"gone", none, none⟩], ⟨.sequential, none⟩, none⟩
    let outer : Hybrid :=
      ⟨[⟨"say", some "first", none⟩, ⟨"inner", none, none⟩,
        ⟨"say", some "last", none⟩], ⟨.sequential, none⟩, none⟩
    let nested : Skill :=
      (Definition.hybrid inner).skill "inner" "Inner" "Inner" .custom []
    let skill : Skill :=
      (Definition.hybrid outer).skill "outer" "Outer" "Outer" .custom []
    let skills : Dict Skill :=
      [("inner", nested), ("outer", skill),
        ("say", (Definition.prompt say).skill "say" "Say" "Says it" .custom [])]
    let context : Context :=
      ⟨[("text", .string "rain")], .empty, ⟨"mock", none⟩, .empty⟩
    let backends : Backends Scripted.World :=
      ⟨Router.empty.add (Scripted.echo "mock" 0), Host.empty.registry⟩
    let ran := executeWithin backends skills (maxDepth + 1) "outer" context
      Scripted.World.empty
    skills.find? "outer" = some skill ∧
      skill.refusal? (maxDepth + 1) "outer" = none ∧
      skill.definition = .hybrid outer ∧
      ran.value.1.error = some
        "sub-skill inner failed: sub-skill gone failed: skill not found: gone" ∧
      ran.value.2.state.bindings.names = ["first"] ∧
      ∃ earlier failing,
        Turns (executeWithin backends skills maxDepth) context
          Scripted.World.empty (earlier ++ [failing]) ran.world ∧
        failing.result.success = false ∧
        ran.value.2.state.bindings =
          context.state.bindings.insertAll (earlier.map Turn.binding) := by
  intro say inner outer nested skill skills context backends ran
  have hfind : skills.find? "outer" = some skill := rfl
  have haccepted : skill.refusal? (maxDepth + 1) "outer" = none := by decide
  have hdefinition : skill.definition = .hybrid outer := rfl
  obtain ⟨⟨turns, hturns, -, -, hend⟩, hwording⟩ := executeWithin_gives_turns
    backends hfind haccepted hdefinition context Scripted.World.empty
  -- The call that fails lies two levels down, behind the first entry.
  set said := executeWithin backends skills maxDepth "say" context
    Scripted.World.empty
  have hsuccess : said.value.1.success = true := by decide
  have hnested : nested.refusal? maxDepth "inner" = none := by decide
  have hinner : nested.definition = .hybrid inner := rfl
  have hlast : Call.Descends backends skills ["gone"]
      ⟨maxDepth, "inner", context, said.world⟩
      ⟨15, "gone", context, said.world⟩ :=
    .entry rfl hnested hinner .first (.here _)
  have hsecond : Call.Entered backends skills maxDepth outer.skills.length 0
      outer.skills (skill.prepared context) Scripted.World.empty
      (.progressed 0 3 "say" :: (said.events ++ [.progressed 1 3 "inner"]))
      ⟨maxDepth, "inner", context, said.world⟩ :=
    .later said rfl hsuccess .first
  have hdescends := Call.Descends.entry hfind haccepted hdefinition hsecond hlast
  obtain ⟨hfailed, herror⟩ := hwording _ _ _ hdescends rfl rfl
  refine ⟨hfind, haccepted, hdefinition, herror, by decide, ?_⟩
  rcases hend with ⟨-, -, hsuccess, -⟩ |
    ⟨earlier, failing, later, reason, rfl, -, -, hfails, -, -, -, hbindings⟩
  · exact absurd (hfailed.symm.trans hsuccess) Bool.false_ne_true
  · exact ⟨earlier, failing, hturns, hfails, hbindings⟩

end SkillEngine
