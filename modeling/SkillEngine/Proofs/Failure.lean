import SkillEngine.Failure

/-!
# The wording of failures

Failures are told apart by their constructors, but the result of a skill only
carries their wording.  A failure that reads like one of the dependency check
is one of that check or comes from outside with a text of its own.
-/

namespace SkillEngine.Failure

/-- The failure reads like one of the dependency check. -/
def ReadsUnmet (failure : Failure) : Prop :=
  ∃ dependency, failure.message = (dependencyNotMet dependency).message

theorem append_ne_unmet {first : String}
    (hfirst : first.toList.head?.getD 'd' ≠ 'd') (rest dependency : String) :
    first ++ rest ≠ "dependency not met: " ++ dependency := by
  intro heq
  have hheads := congrArg (·.toList.head?.getD 'd') heq
  cases hletter : first.toList.head? with
  | none => simp [hletter] at hfirst
  | some letter =>
      simp only [hletter, Option.getD_some] at hfirst
      simp [hletter] at hheads
      exact hfirst hheads

/-- No other failure of the engine's own wording reads so: each begins with
another letter. -/
theorem not_readsUnmet {failure : Failure}
    (hcheck : ∀ step, failure ≠ .dependencyNotMet step)
    (htext : ∀ text, failure ≠ .other text) : ¬failure.ReadsUnmet := by
  rintro ⟨dependency, hreads⟩
  cases failure with
  | dependencyNotMet step => exact hcheck step rfl
  | other text => exact htext text rfl
  | _ => exact append_ne_unmet (by simp) _ _ hreads

end SkillEngine.Failure
