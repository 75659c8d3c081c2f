import SkillEngine.Execution.Context
import SkillEngine.Generator.Basic

/-!
# Runs

A run is a computation that consults backends, which share a world, and that reports what it does
as a list of events in order: every answer of a generator or tool, every log line, every report of
progress.
-/

namespace SkillEngine

/-- Something that a run did. -/
inductive Event where
  | generated (generator : String) (request : GenerationRequest)
      (answer : Except Failure Generation)
  | invoked (tool : String) (parameters : Json.Object) (answer : Except Failure Json)
  | logged (line : LogLine)
  | progressed (done total : Nat) (message : String)

/-- The value that a run returns, what it did, and the world that it leaves. -/
structure Ran (σ α : Type) where
  value : α
  events : List Event
  world : σ

/-- A computation that consults backends. -/
def Run (σ α : Type) := σ → Ran σ α

namespace Run

variable {σ α β : Type}

/-- Return a value and do nothing. -/
protected def pure (value : α) : Run σ α := fun world => ⟨value, [], world⟩

/-- One run after another. -/
protected def bind (first : Run σ α) (next : α → Run σ β) : Run σ β := fun world =>
  let early := first world
  let late := next early.value early.world
  ⟨late.value, early.events ++ late.events, late.world⟩

instance : Monad (Run σ) where
  pure := Run.pure
  bind := Run.bind

/-- Report an event. -/
def emit (event : Event) : Run σ Unit := fun world => ⟨(), [event], world⟩

/-- Write to the log. -/
def log (level : LogLevel) (text : String) : Run σ Unit := emit (.logged ⟨level, text⟩)

/-- Report progress. -/
def progress (done total : Nat) (message : String) : Run σ Unit :=
  emit (.progressed done total message)

end Run

end SkillEngine
