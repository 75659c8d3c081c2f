import SkillEngine.Execution.Engine
import SkillEngine.Proofs.Execution.Run
import SkillEngine.Proofs.Outcome

/-!
# The entries of a hybrid, one equation at a time

Each equation opens one turn of the recursion over the entries: the call that
an entry makes, and what follows its result.  How a skill runs stays a
parameter, as in the recursion itself.
-/

namespace SkillEngine

namespace Context

/-- The context of the call that an entry makes. -/
def childFor (context : Context) (entry : SubSkill) : Context :=
  context.fork (entry.input context.input)

/-- The context behind an entry that succeeded. -/
def behind (context : Context) (entry : SubSkill) (result : SkillResult) :
    Context :=
  ((context.enter entry).charge result).keep entry
    (result.output.getD .null)

end Context

namespace Hybrid

variable {σ : Type} {runSkill : Runner σ} {total position : Nat}
  {entry : SubSkill} {entries : List SubSkill} {context : Context} {world : σ}

theorem runEntries_nil :
    runEntries runSkill total position [] context world =
      ⟨(.ok [], context), [], world⟩ := rfl

theorem runEntries_of_success
    (h : (runSkill entry.skill (context.childFor entry)
      world).value.1.success = true) :
    let ran := runSkill entry.skill (context.childFor entry) world
    let later := runEntries runSkill total (position + 1) entries
      (context.behind entry ran.value.1) ran.world
    runEntries runSkill total position (entry :: entries) context world =
      ⟨(later.value.1.map (ran.value.1.output.getD .null :: ·),
          later.value.2),
        .progressed position total entry.skill :: (ran.events ++ later.events),
        later.world⟩ := by
  intro ran later
  have hran : runSkill entry.skill (context.fork (entry.input context.input))
      world = ran := rfl
  have hsuccess : ran.value.1.success = true := h
  rw [runEntries]
  simp [hran, hsuccess, later, Context.behind]

theorem runEntries_of_failure
    (h : (runSkill entry.skill (context.childFor entry)
      world).value.1.success = false) :
    let ran := runSkill entry.skill (context.childFor entry) world
    runEntries runSkill total position (entry :: entries) context world =
      ⟨(.error (entry.failure ran.value.1),
          (context.enter entry).charge ran.value.1),
        .progressed position total entry.skill :: ran.events, ran.world⟩ := by
  intro ran
  have hran : runSkill entry.skill (context.fork (entry.input context.input))
      world = ran := rfl
  have hfailure : ran.value.1.success = false := h
  rw [runEntries]
  simp [hran, hfailure]

/-- When all entries end well, each of them was called and succeeded. -/
theorem success_of_runEntries {outputs : List Json}
    (h : (runEntries runSkill total position entries context world).value.1 =
      .ok outputs)
    (hentry : entry ∈ entries) :
    ∃ child world',
      (runSkill entry.skill child world').value.1.success = true := by
  induction entries generalizing position context world outputs with
  | nil => simp at hentry
  | cons first entries ih =>
      cases hfirst : (runSkill first.skill (context.childFor first)
          world).value.1.success with
      | false => simp [runEntries_of_failure hfirst] at h
      | true =>
          rcases List.mem_cons.mp hentry with rfl | hentry
          · exact ⟨_, _, hfirst⟩
          · rw [runEntries_of_success hfirst] at h
            obtain ⟨later, hlater, -⟩ := exceptMap_eq_ok_iff.mp h
            exact ih hlater hentry

/-! ## The hybrid as a whole -/

/-- What a hybrid reports about a mode that is not followed. -/
def modeEvents (hybrid : Hybrid) : List Event :=
  if hybrid.orchestration.mode ≠ .sequential then
    [.logged ⟨.warn, modeText hybrid.orchestration.mode⟩]
  else []

/-- What the run of the entries leads to for the skill. -/
def handOver (hybrid : Hybrid) :
    Except Failure (List Json) × Context → Except Failure Dispatched × Context
  | (.ok outputs, context) =>
    (.ok ⟨mergeOutputs outputs hybrid.merge, hybrid.skills.length, none⟩,
      context.leave)
  | (.error failure, context) => (.error failure, context)

theorem dispatch_apply (runSkill : Runner σ) (hybrid : Hybrid)
    (context : Context) (world : σ) :
    let ran := runEntries runSkill hybrid.skills.length 0 hybrid.skills context
      world
    hybrid.dispatch runSkill context world =
      ⟨hybrid.handOver ran.value, hybrid.modeEvents ++ ran.events,
        ran.world⟩ := by
  intro ran
  have hran : runEntries runSkill hybrid.skills.length 0 hybrid.skills context
      world = ran := rfl
  rcases hvalue : ran.value with ⟨_ | _, later⟩
  all_goals
    by_cases hmode : hybrid.orchestration.mode = .sequential
    · simp [dispatch, run, hmode, hran, hvalue, handOver, modeEvents,
        Except.map]
    · simp [dispatch, run, hmode, hran, hvalue, handOver, modeEvents,
        Except.map]

end Hybrid

end SkillEngine
