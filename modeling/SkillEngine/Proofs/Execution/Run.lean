import SkillEngine.Execution.Run

/-!
# Runs step by step

What a run returns, reports and leaves behind, for each way of putting runs
together.  These equations open a run without unfolding its definition.
-/

namespace SkillEngine.Run

variable {σ α β : Type}

@[simp] theorem pure_apply (value : α) (world : σ) :
    (pure value : Run σ α) world = ⟨value, [], world⟩ := rfl

@[simp] theorem bind_apply
    (first : Run σ α) (next : α → Run σ β) (world : σ) :
    (first >>= next) world =
      let early := first world
      let late := next early.value early.world
      ⟨late.value, early.events ++ late.events, late.world⟩ := rfl

@[simp] theorem log_apply (level : LogLevel) (text : String) (world : σ) :
    log level text world = ⟨(), [.logged ⟨level, text⟩], world⟩ := rfl

@[simp] theorem progress_apply
    (done total : Nat) (message : String) (world : σ) :
    progress done total message world =
      ⟨(), [.progressed done total message], world⟩ := rfl

end SkillEngine.Run
