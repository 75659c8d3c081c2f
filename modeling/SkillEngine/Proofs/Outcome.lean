/-!
# Outcomes that succeed

When a computation that can fail succeeds, each of its parts did, and their
values make its value.  With these equivalences a successful computation is
taken apart step by step.
-/

namespace SkillEngine

variable {ε α β : Type} {outcome : Except ε α} {result : β}

theorem ok_bind (value : α) (next : α → Except ε β) :
    (Except.ok value >>= next) = next value := rfl

theorem bind_eq_ok_iff {next : α → Except ε β} :
    outcome >>= next = .ok result ↔
      ∃ value, outcome = .ok value ∧ next value = .ok result := by
  cases outcome <;> simp [bind, Except.bind]

theorem bind_ok_eq_map (f : α → β) :
    (outcome >>= fun value => .ok (f value)) = outcome.map f := by
  cases outcome <;> rfl

theorem exceptMap_eq_ok_iff {f : α → β} :
    outcome.map f = .ok result ↔ ∃ value, outcome = .ok value ∧ f value = result := by
  cases outcome <;> simp [Except.map]

end SkillEngine
