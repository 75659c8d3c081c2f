import Mathlib.Data.List.Chain
import SkillEngine.Proofs.Execution.Nesting

/-!
# How deep a run nests

Hybrids may refer to each other in any way, also in cycles.  What keeps a run
finite is the check of the depth alone.  `Recurs` describes runs at all depths
that call each other with nothing but this check between them, and exactly one
family of runs fits the description.

A run that succeeds has followed every reference, since the first failure ends
it.  So success bounds every chain of references, and where chains are short
enough the check of the depth is never what refuses a call.
-/

namespace SkillEngine

variable {σ : Type}

/-! ## The recursion with the depth counted upwards -/

/-- How a skill runs at a depth, when `deeper` says how skills run below. -/
def runAt (backends : Backends σ) (skills : Dict Skill) (depth : Nat)
    (deeper : Hybrid.Runner σ) : Hybrid.Runner σ := fun id context =>
  match skills.find? id with
  | none => return (.failed (Failure.notFound id).message, context)
  | some skill =>
    if !skill.enabled then
      return (.failed (Failure.notEnabled id).message, context)
    else if maxDepth < depth then
      return (.failed (Failure.recursionLimit depth).message, context)
    else if skill.violations.isEmpty then skill.run backends deeper context
    else return (.failed (Failure.invalid skill.validate).message, context)

/-- Runs at all depths, each of which calls those one level deeper. -/
def Recurs (backends : Backends σ) (skills : Dict Skill)
    (run : Nat → Hybrid.Runner σ) : Prop :=
  ∀ depth, run depth = runAt backends skills depth (run (depth + 1))

/-- The runs at all depths. -/
def executeAt (backends : Backends σ) (skills : Dict Skill) (depth : Nat) :
    Hybrid.Runner σ :=
  runAt backends skills depth (executeWithin backends skills (maxDepth - depth))

variable {backends : Backends σ} {skills : Dict Skill}

theorem runAt_of_deep {depth : Nat} (h : maxDepth < depth)
    (deeper other : Hybrid.Runner σ) :
    runAt backends skills depth deeper = runAt backends skills depth other := by
  funext id context
  simp [runAt, h]

theorem runAt_limit (deeper : Hybrid.Runner σ) :
    runAt backends skills (maxDepth + 1) deeper =
      executeWithin backends skills 0 := by
  funext id context
  rw [executeWithin]
  cases hfind : skills.find? id with
  | none => simp [runAt, hfind]
  | some skill =>
      cases henabled : skill.enabled with
      | false => simp [runAt, hfind, Skill.refusal?, henabled]
      | true => simp [runAt, hfind, Skill.refusal?, henabled]

theorem runAt_executeWithin {depth levels : Nat}
    (h : depth + levels = maxDepth) :
    runAt backends skills depth (executeWithin backends skills levels) =
      executeWithin backends skills (levels + 1) := by
  have hdepth : ¬maxDepth < depth := by omega
  funext id context
  rw [executeWithin.eq_def]
  cases hfind : skills.find? id with
  | none => simp [runAt, hfind]
  | some skill =>
      cases henabled : skill.enabled with
      | false => simp [runAt, hfind, Skill.refusal?, henabled]
      | true =>
          cases hvalid : skill.violations.isEmpty with
          | false =>
              simp [runAt, hfind, Skill.refusal?, henabled, hvalid, hdepth]
          | true =>
              simp [runAt, hfind, Skill.refusal?, henabled, hvalid, hdepth]

theorem executeAt_eq {depth levels : Nat} (h : depth + levels = maxDepth + 1) :
    executeAt backends skills depth = executeWithin backends skills levels := by
  cases levels with
  | zero =>
      obtain rfl : depth = maxDepth + 1 := h
      exact runAt_limit _
  | succ levels =>
      have hlevels : maxDepth - depth = levels := by omega
      rw [executeAt, hlevels]
      exact runAt_executeWithin (by omega)

theorem recurs_executeAt : Recurs backends skills (executeAt backends skills) := by
  intro depth
  by_cases hdepth : depth ≤ maxDepth
  · have hnext : depth + 1 + (maxDepth - depth) = maxDepth + 1 := by omega
    rw [executeAt_eq hnext]
    rfl
  · exact runAt_of_deep (by omega) _ _

theorem Recurs.eq_executeWithin {run : Nat → Hybrid.Runner σ}
    (h : Recurs backends skills run) {depth levels : Nat}
    (hlevels : depth + levels = maxDepth + 1) :
    run depth = executeWithin backends skills levels := by
  induction levels generalizing depth with
  | zero =>
      obtain rfl : depth = maxDepth + 1 := hlevels
      rw [h, runAt_limit]
  | succ levels ih =>
      rw [h, ih (by omega)]
      exact runAt_executeWithin (by omega)

/-- Nothing but the check of the depth is needed to determine the runs. -/
theorem Recurs.eq_executeAt {run : Nat → Hybrid.Runner σ}
    (h : Recurs backends skills run) : run = executeAt backends skills := by
  funext depth
  by_cases hdepth : depth ≤ maxDepth
  · have hlevels : depth + (maxDepth + 1 - depth) = maxDepth + 1 := by omega
    rw [h.eq_executeWithin hlevels, executeAt_eq hlevels]
  · rw [h]
    exact runAt_of_deep (by omega) _ _

/-! ## Chains of references -/

/-- A hybrid registered under the first id has an entry for the second. -/
def Refers (skills : Dict Skill) (first second : String) : Prop :=
  ∃ skill hybrid entry,
    skills.find? first = some skill ∧ skill.definition = .hybrid hybrid ∧
      entry ∈ hybrid.skills ∧ entry.skill = second

/-- Every chain of references from an id has at most so many links. -/
def ChainsWithin (skills : Dict Skill) (limit : Nat) (id : String) : Prop :=
  ∀ chain, List.IsChain (Refers skills) (id :: chain) → chain.length ≤ limit

theorem ChainsWithin.of_refers {limit : Nat} {first second : String}
    (h : ChainsWithin skills limit first)
    (hrefers : Refers skills first second) :
    ∃ less < limit, ChainsWithin skills less second := by
  have hlonger : ∀ chain, List.IsChain (Refers skills) (second :: chain) →
      chain.length + 1 ≤ limit := by
    intro chain hchain
    exact h (second :: chain) (List.isChain_cons_cons.mpr ⟨hrefers, hchain⟩)
  have hpos := hlonger [] (List.isChain_singleton second)
  refine ⟨limit - 1, by omega, ?_⟩
  intro chain hchain
  have := hlonger chain hchain
  omega

theorem ChainsWithin.of_transGen {limit : Nat} {first second : String}
    (h : ChainsWithin skills limit first)
    (hpath : Relation.TransGen (Refers skills) first second) :
    ∃ less < limit, ChainsWithin skills less second := by
  induction hpath with
  | single hrefers => exact h.of_refers hrefers
  | tail _ hrefers ih =>
      obtain ⟨middle, hmiddle, hchains⟩ := ih
      obtain ⟨less, hless, hchains⟩ := hchains.of_refers hrefers
      exact ⟨less, by omega, hchains⟩

theorem not_chainsWithin_of_cycle {id : String}
    (hcycle : Relation.TransGen (Refers skills) id id) (limit : Nat) :
    ¬ChainsWithin skills limit id := by
  induction limit using Nat.strong_induction_on with
  | _ limit ih =>
      intro h
      obtain ⟨less, hless, hchains⟩ := h.of_transGen hcycle
      exact ih less hless hchains

/-- The calls on the way to a nested one follow a chain of references. -/
theorem Call.Nested.exists_chain {depth : Nat} {call inner : Call σ}
    {before : List Event}
    (h : Call.Nested backends skills depth call before inner) :
    ∃ chain, List.IsChain (Refers skills) (call.id :: chain) ∧
      chain.length = depth := by
  induction h with
  | here call => exact ⟨[], List.isChain_singleton call.id, rfl⟩
  | @entry _ _ _ _ skill hybrid child _ _ _ _ hfind _ hdefinition hentered _ ih =>
      obtain ⟨chain, hchain, hlength⟩ := ih
      obtain ⟨reference, hmem, hid⟩ := hentered.mem
      refine ⟨child.id :: chain, List.isChain_cons_cons.mpr ⟨?_, hchain⟩, ?_⟩
      · exact ⟨skill, hybrid, reference, hfind, hdefinition, hmem, hid⟩
      · simp [hlength]

/-! ## Success bounds the chains -/

theorem success_of_executeWithin_hybrid {levels : Nat} {id : String}
    {skill : Skill} {hybrid : Hybrid} {context : Context} {world : σ}
    (hfind : skills.find? id = some skill)
    (hdefinition : skill.definition = .hybrid hybrid)
    (h : (executeWithin backends skills levels id context
      world).value.1.success = true)
    {entry : SubSkill} (hentry : entry ∈ hybrid.skills) :
    ∃ left child world', levels = left + 1 ∧
      (executeWithin backends skills left entry.skill child
        world').value.1.success = true := by
  rcases executeWithin_cases backends skills levels id context world with
    ⟨failure, -, hran⟩ | ⟨found, left, hfound, rfl, haccepted, -⟩
  · simp [hran, SkillResult.failed] at h
  obtain rfl : skill = found := Option.some.inj (hfind.symm.trans hfound)
  have hrun := Call.run_of_hybrid backends hfind haccepted hdefinition context
    world
  rw [Call.run] at hrun
  rw [hrun] at h
  rcases hvalue : (Hybrid.runEntries (executeWithin backends skills left)
      hybrid.skills.length 0 hybrid.skills (skill.prepared context)
      world).value with ⟨failure | outputs, later⟩
  · simp [hvalue, Hybrid.handOver, Skill.conclude] at h
  · obtain ⟨child, world', hsuccess⟩ :=
      Hybrid.success_of_runEntries (congrArg Prod.fst hvalue) hentry
    exact ⟨left, child, world', rfl, hsuccess⟩

theorem length_lt_of_success {levels : Nat} {id : String} {context : Context}
    {world : σ} {chain : List String}
    (h : (executeWithin backends skills levels id context
      world).value.1.success = true)
    (hchain : List.IsChain (Refers skills) (id :: chain)) :
    chain.length < levels := by
  induction chain generalizing levels id context world with
  | nil =>
      rcases executeWithin_cases backends skills levels id context world with
        ⟨failure, -, hran⟩ | ⟨_, left, -, rfl, -, -⟩
      · simp [hran, SkillResult.failed] at h
      · simp
  | cons next chain ih =>
      obtain ⟨hrefers, hrest⟩ := List.isChain_cons_cons.mp hchain
      obtain ⟨skill, hybrid, entry, hfind, hdefinition, hentry, rfl⟩ := hrefers
      obtain ⟨left, child, world', rfl, hsuccess⟩ :=
        success_of_executeWithin_hybrid hfind hdefinition h hentry
      have hlength := ih hsuccess hrest
      simpa using hlength

/-! ## The bound on nesting -/

/-- What an execution owes to the bound on nesting. -/
structure BoundedNesting (backends : Backends σ) (skills : Dict Skill)
    (id : String) (context : Context) (world : σ) : Prop where
  /-- Runs that only check the depth come to an end: exactly one family of
  runs at all depths recurs so, and execution is its outermost run. -/
  terminates : ∃ run, Recurs backends skills run ∧
    run 0 = execute backends skills ∧
      ∀ other, Recurs backends skills other → other = run
  /-- No skill that lies deeper than the bound is let through. -/
  shallow : ∀ depth before inner skill,
    Call.Nested backends skills depth (.outermost id context world) before
      inner →
    skills.find? inner.id = some skill →
    skill.refusal? inner.levels inner.id = none →
      depth ≤ maxDepth
  /-- An execution succeeds only when the chains of references are short. -/
  ofSuccess :
    (execute backends skills id context world).value.1.success = true →
      ChainsWithin skills maxDepth id
  /-- A skill that can reach itself fails. -/
  cyclic : Relation.TransGen (Refers skills) id id →
    (execute backends skills id context world).value.1.success = false
  /-- Where all chains are short, no call is refused for its depth. -/
  unrefused : ChainsWithin skills maxDepth id → ∀ depth before inner,
    Call.Nested backends skills depth (.outermost id context world) before
      inner →
    ∀ reported,
      refusal? skills inner.levels inner.id ≠ some (.recursionLimit reported)

/-- Whatever the references between skills, nesting is bounded in every
execution. -/
theorem execute_bounds_nesting (backends : Backends σ) (skills : Dict Skill)
    (id : String) (context : Context) (world : σ) :
    BoundedNesting backends skills id context world := by
  have hsuccess :
      (execute backends skills id context world).value.1.success = true →
        ChainsWithin skills maxDepth id := by
    intro h chain hchain
    exact Nat.lt_succ_iff.mp (length_lt_of_success h hchain)
  constructor
  case terminates =>
    refine ⟨executeAt backends skills, recurs_executeAt, ?_, ?_⟩
    · exact executeAt_eq (Nat.zero_add _)
    · intro other hother
      exact hother.eq_executeAt
  case shallow =>
    intro depth before inner skill hnested _ haccepted
    have hlevels : inner.levels + depth = maxDepth + 1 := hnested.levels_add
    have hpos : inner.levels ≠ 0 := (Skill.refusal?_eq_none.mp haccepted).2.1
    omega
  case ofSuccess => exact hsuccess
  case cyclic =>
    intro hcycle
    by_contra h
    apply not_chainsWithin_of_cycle hcycle maxDepth
    apply hsuccess
    simpa using h
  case unrefused =>
    intro hchains depth before inner hnested reported hrefusal
    have hlevels : inner.levels + depth = maxDepth + 1 := hnested.levels_add
    obtain ⟨chain, hchain, rfl⟩ := hnested.exists_chain
    have hshort : chain.length ≤ maxDepth := hchains chain hchain
    have hzero : inner.levels = 0 := eq_zero_of_recursionLimit hrefusal
    omega

end SkillEngine
