import SkillEngine.Proofs.Execution.Engine
import SkillEngine.Proofs.Execution.Hybrid

/-!
# Calls nested in a run

While a skill runs, hybrids call other skills, which may be hybrids again.
`Nested` says that the run of one call comes to another, how many hybrids deep
that one lies, and what the run reported before it.  A statement about every
skill that runs in the course of an execution is one about every call nested
in it.

The depth is counted along the calls, from the outermost one; the recursion
itself counts downwards the levels that are left.  `Nested.levels_add` relates
the two.
-/

namespace SkillEngine

/-- A call of a skill: its id, how many levels of nesting are left to it, and
what it is given. -/
structure Call (σ : Type) where
  levels : Nat
  id : String
  context : Context
  world : σ

namespace Call

variable {σ : Type}

/-- The run of a call. -/
def run (backends : Backends σ) (skills : Dict Skill) (call : Call σ) :
    Ran σ (SkillResult × Context) :=
  executeWithin backends skills call.levels call.id call.context call.world

/-- The call ends in a failed result. -/
def Fails (backends : Backends σ) (skills : Dict Skill) (call : Call σ) :
    Prop :=
  (call.run backends skills).value.1.success = false

/-- The call with which an execution begins. -/
def outermost (id : String) (context : Context) (world : σ) : Call σ :=
  ⟨maxDepth + 1, id, context, world⟩

/-- Entries of a hybrid that run one after another make the call, before which
they reported the events: every entry before that of the call succeeded. -/
inductive Entered (backends : Backends σ) (skills : Dict Skill)
    (levels total : Nat) : (position : Nat) → List SubSkill → Context → σ →
      List Event → Call σ → Prop where
  | first {position : Nat} {entry : SubSkill} {entries : List SubSkill}
      {context : Context} {world : σ} :
      Entered backends skills levels total position (entry :: entries) context
        world [.progressed position total entry.skill]
        ⟨levels, entry.skill, context.childFor entry, world⟩
  | later {position : Nat} {entry : SubSkill} {entries : List SubSkill}
      {context : Context} {world : σ} {before : List Event} {call : Call σ}
      (ran : Ran σ (SkillResult × Context))
      (hran : ran = executeWithin backends skills levels entry.skill
        (context.childFor entry) world)
      (hsuccess : ran.value.1.success = true)
      (hlater : Entered backends skills levels total (position + 1) entries
        (context.behind entry ran.value.1) ran.world before call) :
      Entered backends skills levels total position (entry :: entries) context
        world
        (.progressed position total entry.skill :: (ran.events ++ before)) call

/-- The run of the first call comes to the second, which lies as deep in it as
the number says, and reported the events before. -/
inductive Nested (backends : Backends σ) (skills : Dict Skill) :
    (depth : Nat) → Call σ → List Event → Call σ → Prop where
  | here (call : Call σ) : Nested backends skills 0 call [] call
  | entry {levels : Nat} {id : String} {context : Context} {world : σ}
      {skill : Skill} {hybrid : Hybrid} {child inner : Call σ}
      {before more : List Event} {depth : Nat}
      (hfind : skills.find? id = some skill)
      (haccepted : skill.refusal? (levels + 1) id = none)
      (hdefinition : skill.definition = .hybrid hybrid)
      (hentered : Entered backends skills levels hybrid.skills.length 0
        hybrid.skills (skill.prepared context) world before child)
      (hinner : Nested backends skills depth child more inner) :
      Nested backends skills (depth + 1) ⟨levels + 1, id, context, world⟩
        (hybrid.modeEvents ++ before ++ more) inner

variable {backends : Backends σ} {skills : Dict Skill}

/-! ## The calls of entries -/

section Entries

variable {levels total position : Nat} {entries : List SubSkill}
  {context : Context} {world : σ} {before : List Event} {call : Call σ}

theorem Entered.levels_eq
    (h : Entered backends skills levels total position entries context world
      before call) :
    call.levels = levels := by
  induction h with
  | first => rfl
  | later _ _ _ _ ih => exact ih

theorem Entered.mem
    (h : Entered backends skills levels total position entries context world
      before call) :
    ∃ entry ∈ entries, entry.skill = call.id := by
  induction h with
  | @first position entry entries context world =>
      exact ⟨entry, List.mem_cons_self, rfl⟩
  | later _ _ _ _ ih =>
      obtain ⟨entry, hentry, hid⟩ := ih
      exact ⟨entry, List.mem_cons_of_mem _ hentry, hid⟩

/-- A call that fails is the last thing that the entries do. -/
theorem Entered.runEntries_of_fails
    (h : Entered backends skills levels total position entries context world
      before call)
    (hfails : call.Fails backends skills) :
    let ran := Hybrid.runEntries (executeWithin backends skills levels) total
      position entries context world
    (∃ failure, ran.value.1 = .error failure) ∧
      ran.events = before ++ (call.run backends skills).events ∧
      ran.world = (call.run backends skills).world := by
  induction h with
  | first =>
      rw [Hybrid.runEntries_of_failure hfails]
      exact ⟨⟨_, rfl⟩, rfl, rfl⟩
  | later ran hran hsuccess hlater ih =>
      subst hran
      obtain ⟨⟨failure, hvalue⟩, hevents, hworld⟩ := ih hfails
      rw [Hybrid.runEntries_of_success hsuccess]
      refine ⟨⟨failure, ?_⟩, ?_, hworld⟩
      · simp [hvalue, Except.map]
      · simp [hevents]

end Entries

/-! ## Nested calls -/

theorem Nested.levels_add {depth : Nat} {call inner : Call σ}
    {before : List Event} (h : Nested backends skills depth call before inner) :
    inner.levels + depth = call.levels := by
  induction h with
  | here => rfl
  | entry _ _ _ hentered _ ih =>
      have hchild := hentered.levels_eq
      dsimp only
      omega

/-- The run of a hybrid that is called and not refused. -/
theorem run_of_hybrid (backends : Backends σ) {levels : Nat} {id : String}
    {skill : Skill} {hybrid : Hybrid} (hfind : skills.find? id = some skill)
    (haccepted : skill.refusal? (levels + 1) id = none)
    (hdefinition : skill.definition = .hybrid hybrid)
    (context : Context) (world : σ) :
    let ran := Hybrid.runEntries (executeWithin backends skills levels)
      hybrid.skills.length 0 hybrid.skills (skill.prepared context) world
    (⟨levels + 1, id, context, world⟩ : Call σ).run backends skills =
      ⟨Skill.conclude context.state.tokensUsed (hybrid.handOver ran.value),
        hybrid.modeEvents ++ ran.events, ran.world⟩ := by
  -- Hybrids declare no parameters, so nothing can be missing.
  have hgiven : (applyParameters skill.parameters context.input).1 =
      .ok () := by
    simp [Skill.parameters, hdefinition, applyParameters]
  rw [run, executeWithin_of_accepted hfind haccepted,
    Skill.run_of_given hgiven, hdefinition, Definition.run,
    Hybrid.dispatch_apply]

/-- A nested call that fails is the last thing that the run does, and the run
fails with it. -/
theorem Nested.run_of_fails {depth : Nat} {call inner : Call σ}
    {before : List Event} (h : Nested backends skills depth call before inner)
    (hfails : inner.Fails backends skills) :
    call.Fails backends skills ∧
      (call.run backends skills).events =
        before ++ (inner.run backends skills).events ∧
      (call.run backends skills).world =
        (inner.run backends skills).world := by
  induction h with
  | here call => exact ⟨hfails, rfl, rfl⟩
  | entry hfind haccepted hdefinition hentered _ ih =>
      obtain ⟨hchild, hevents, hworld⟩ := ih hfails
      obtain ⟨⟨failure, hvalue⟩, hentries, hlast⟩ :=
        hentered.runEntries_of_fails hchild
      rw [Fails, run_of_hybrid backends hfind haccepted hdefinition]
      refine ⟨?_, ?_, hlast.trans hworld⟩
      · rw [← Prod.eta (Hybrid.runEntries _ _ _ _ _ _).value, hvalue]
        rfl
      · simp [hentries, hevents]

end Call

end SkillEngine
