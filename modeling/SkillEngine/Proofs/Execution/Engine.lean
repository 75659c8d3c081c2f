import SkillEngine.Execution.Engine
import SkillEngine.Proofs.Execution.Run

/-!
# Executing a skill

The ways that the call of a skill can go, one equation for each: the skill is
refused, its parameters are not given, or its definition runs.
-/

namespace SkillEngine

variable {σ : Type} {backends : Backends σ} {skills : Dict Skill} {id : String}
  {skill : Skill} {context : Context}

/-! ## The checks before a skill runs -/

theorem Skill.refusal?_eq_none {levels : Nat} :
    skill.refusal? levels id = none ↔
      skill.enabled = true ∧ levels ≠ 0 ∧ skill.validate = [] := by
  have hvalid : skill.validate = [] ↔ skill.violations = [] := by
    simp [Skill.validate]
  rw [Skill.refusal?, hvalid]
  cases skill.enabled <;> by_cases hlevels : levels = 0 <;> simp [hlevels]

theorem eq_zero_of_recursionLimit {levels reported : Nat}
    (h : refusal? skills levels id = some (.recursionLimit reported)) :
    levels = 0 := by
  cases levels with
  | zero => rfl
  | succ left =>
      cases hfind : skills.find? id with
      | none => simp [refusal?, hfind] at h
      | some skill =>
          simp only [refusal?, hfind, Skill.refusal?, Nat.add_one_ne_zero,
            if_false] at h
          split at h
          · simp at h
          · split at h <;> simp at h

/-! ## The call of a skill -/

theorem executeWithin_of_refusal {levels : Nat} {failure : Failure}
    (hfind : skills.find? id = some skill)
    (hrefusal : skill.refusal? levels id = some failure)
    (context : Context) (world : σ) :
    executeWithin backends skills levels id context world =
      ⟨(.failed failure.message, context), [], world⟩ := by
  rw [executeWithin]
  simp [hfind, hrefusal]

theorem executeWithin_of_accepted {levels : Nat}
    (hfind : skills.find? id = some skill)
    (hrefusal : skill.refusal? (levels + 1) id = none)
    (context : Context) (world : σ) :
    executeWithin backends skills (levels + 1) id context world =
      skill.run backends (executeWithin backends skills levels)
        context world := by
  rw [executeWithin]
  simp [hfind, hrefusal]

/-- An id is refused in every context, or its skill runs in each, with one level
less for those that it calls. -/
theorem executeWithin_eq (backends : Backends σ) (skills : Dict Skill)
    (levels : Nat) (id : String) :
    (∃ failure, refusal? skills levels id = some failure ∧
      ∀ context, executeWithin backends skills levels id context =
        pure (.failed failure.message, context)) ∨
    ∃ skill left, skills.find? id = some skill ∧ levels = left + 1 ∧
      skill.refusal? (left + 1) id = none ∧
      ∀ context, executeWithin backends skills levels id context =
        skill.run backends (executeWithin backends skills left) context := by
  cases hfind : skills.find? id with
  | none =>
      refine .inl ⟨.notFound id, by simp [refusal?, hfind], ?_⟩
      intro context
      rw [executeWithin]
      simp [hfind]
  | some skill =>
      cases hrefusal : skill.refusal? levels id with
      | some failure =>
          refine .inl ⟨failure, by simp [refusal?, hfind, hrefusal], ?_⟩
          intro context
          funext world
          exact executeWithin_of_refusal hfind hrefusal context world
      | none =>
          cases levels with
          | zero => simp [Skill.refusal?_eq_none] at hrefusal
          | succ left =>
              refine .inr ⟨skill, left, rfl, rfl, hrefusal, ?_⟩
              intro context
              funext world
              exact executeWithin_of_accepted hfind hrefusal context world

/-- A call of a skill is refused and changes nothing, or the skill runs with
one level less for those that it calls. -/
theorem executeWithin_cases (backends : Backends σ) (skills : Dict Skill)
    (levels : Nat) (id : String) (context : Context) (world : σ) :
    let ran := executeWithin backends skills levels id context world
    (∃ failure, refusal? skills levels id = some failure ∧
      ran = ⟨(.failed failure.message, context), [], world⟩) ∨
    ∃ skill left, skills.find? id = some skill ∧ levels = left + 1 ∧
      skill.refusal? (left + 1) id = none ∧
      ran = skill.run backends (executeWithin backends skills left)
        context world := by
  intro ran
  rcases executeWithin_eq backends skills levels id with
    ⟨failure, hrefusal, hrefused⟩ |
      ⟨skill, left, hfind, hlevels, haccepted, hruns⟩
  · exact .inl ⟨failure, hrefusal, congrFun (hrefused context) world⟩
  · exact .inr ⟨skill, left, hfind, hlevels, haccepted,
      congrFun (hruns context) world⟩

theorem applyParameters_error {parameters : List Parameter}
    {input : Json.Object} {failure : Failure}
    (h : (applyParameters parameters input).1 = .error failure) :
    ∃ name, failure = .missingParameter name := by
  induction parameters generalizing input with
  | nil => simp [applyParameters] at h
  | cons parameter parameters ih =>
      rw [applyParameters] at h
      split at h
      · exact ih h
      · split at h
        · exact ih h
        · split at h
          · exact ⟨parameter.name, by simpa using h.symm⟩
          · exact ih h

namespace Skill

variable {runSkill : Hybrid.Runner σ}

/-- The context in which the definition of a skill runs. -/
def prepared (skill : Skill) (context : Context) : Context :=
  { context.withOutputs [] with
    input := (applyParameters skill.parameters context.input).2 }

/-- A skill whose parameters are given does what its definition says. -/
theorem run_of_given
    (hgiven : (applyParameters skill.parameters context.input).1 = .ok ())
    (world : σ) :
    let ran := skill.definition.run backends runSkill
      (skill.prepared context) world
    skill.run backends runSkill context world =
      ⟨conclude context.state.tokensUsed ran.value, ran.events, ran.world⟩ := by
  rcases happly : applyParameters skill.parameters context.input with
    ⟨outcome, input⟩
  obtain rfl : outcome = .ok () := by simpa [happly] using hgiven
  simp [run, dispatch, Context.withOutputs, happly, prepared]

/-- A skill whose parameters are not given fails at once. -/
theorem run_of_missing {failure : Failure}
    (hmissing :
      (applyParameters skill.parameters context.input).1 = .error failure)
    (world : σ) :
    skill.run backends runSkill context world =
      ⟨conclude context.state.tokensUsed
        (.error failure, skill.prepared context), [], world⟩ := by
  rcases happly : applyParameters skill.parameters context.input with
    ⟨outcome, input⟩
  obtain rfl : outcome = .error failure := by simpa [happly] using hmissing
  simp [run, dispatch, Context.withOutputs, happly, prepared]

/-- A skill fails at once, or does what its definition says. -/
theorem run_cases (backends : Backends σ) (runSkill : Hybrid.Runner σ)
    (skill : Skill) (context : Context) (world : σ) :
    let ran := skill.run backends runSkill context world
    let inner := skill.definition.run backends runSkill
      (skill.prepared context) world
    (∃ failure,
      (applyParameters skill.parameters context.input).1 = .error failure ∧
      ran = ⟨conclude context.state.tokensUsed
        (.error failure, skill.prepared context), [], world⟩) ∨
    (applyParameters skill.parameters context.input).1 = .ok () ∧
      ran = ⟨conclude context.state.tokensUsed inner.value, inner.events,
        inner.world⟩ := by
  intro ran inner
  cases hgiven : (applyParameters skill.parameters context.input).1 with
  | error failure => exact .inl ⟨failure, rfl, run_of_missing hgiven world⟩
  | ok _ => exact .inr ⟨rfl, run_of_given hgiven world⟩

end Skill

end SkillEngine
