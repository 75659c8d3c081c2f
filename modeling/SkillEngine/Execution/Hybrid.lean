import SkillEngine.Execution.Merge
import SkillEngine.Execution.Run
import SkillEngine.Reference

/-!
# Hybrids

A hybrid runs other skills in the order of its entries and combines their outputs.  How a skill
runs is left open here: it is a parameter.  The first entry that fails ends the hybrid.
-/

namespace SkillEngine

/-- The input of a sub-skill: its mapping resolved in the input of the hybrid, or that input. -/
def SubSkill.input (entry : SubSkill) (parent : Json.Object) : Json.Object :=
  match entry.mapping with
  | some mapping => Reference.resolveAll mapping parent []
  | none => parent

/-- The name under which the output of an entry is kept. -/
def SubSkill.key (entry : SubSkill) : String := entry.label.getD entry.skill

/-- The failure of a hybrid whose entry ended with a failed result. -/
def SubSkill.failure (entry : SubSkill) (result : SkillResult) : Failure :=
  .subSkillFailed entry.skill (result.error.getD "")

namespace Context

/-- An entry begins. -/
def enter (context : Context) (entry : SubSkill) : Context :=
  { context with state := { context.state with currentStep := some entry.skill } }

/-- An entry has ended with a result, whose tokens are charged. -/
def charge (context : Context) (result : SkillResult) : Context :=
  { context with
    state := { context.state with tokensUsed := context.state.tokensUsed + result.tokensUsed } }

/-- Keep the output of an entry. -/
def keep (context : Context) (entry : SubSkill) (output : Json) : Context :=
  { context with
    state := { context.state with
      bindings := context.state.bindings.insert entry.key output } }

/-- All entries have ended. -/
def leave (context : Context) : Context :=
  { context with state := { context.state with currentStep := none } }

end Context

namespace Hybrid

variable {σ : Type}

/-- How a skill of a given id runs in a context. -/
abbrev Runner (σ : Type) := String → Context → Run σ (SkillResult × Context)

/-- Run entries one after another, the first of which has the given position. -/
def runEntries (runSkill : Runner σ) (total : Nat) :
    Nat → List SubSkill → Context → Run σ (Except Failure (List Json) × Context)
  | _, [], context => return (.ok [], context)
  | position, entry :: entries, context => do
    let child := context.fork (entry.input context.input)
    let context := context.enter entry
    Run.progress position total entry.skill
    let (result, _) ← runSkill entry.skill child
    let context := context.charge result
    if result.success then do
      let output := result.output.getD .null
      let (outputs, context) ←
        runEntries runSkill total (position + 1) entries (context.keep entry output)
      return (outputs.map (output :: ·), context)
    else return (.error (entry.failure result), context)

/-- The log line for a mode that is not followed. -/
def modeText (mode : OrchestrationMode) : String :=
  "orchestration mode " ++ mode.title ++ " is not supported, running sub-skills sequentially"

/-- Run a hybrid. -/
def run (runSkill : Runner σ) (hybrid : Hybrid) (context : Context) :
    Run σ (Except Failure Json × Context) := do
  if hybrid.orchestration.mode ≠ .sequential then
    Run.log .warn (modeText hybrid.orchestration.mode)
  match ← runEntries runSkill hybrid.skills.length 0 hybrid.skills context with
  | (.ok outputs, context) => return (.ok (mergeOutputs outputs hybrid.merge), context.leave)
  | (.error failure, context) => return (.error failure, context)

end Hybrid

end SkillEngine
