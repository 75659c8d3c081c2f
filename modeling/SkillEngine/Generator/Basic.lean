import SkillEngine.Failure

/-!
# Text generators

A text generator answers a request with a text, or fails.  Its answer may depend on what it
remembers, which is kept in a world `σ` that all backends of a run share.
-/

namespace SkillEngine

/-- The settings that accompany a prompt. -/
structure GenerationOptions where
  systemPrompt : Option String
  model : Option String
  temperature : Option Single
  maxTokens : Option UInt32

/-- No settings. -/
def GenerationOptions.empty : GenerationOptions := ⟨none, none, none, none⟩

/-- A prompt with its settings. -/
structure GenerationRequest where
  prompt : String
  options : GenerationOptions

/-- The tokens that a generation cost. -/
structure Usage where
  inputTokens : UInt32
  outputTokens : UInt32

/-- The number of 32 bits that is nearest to a natural number. -/
def clampWord32 (count : Nat) : UInt32 := UInt32.ofNat (min count (UInt32.size - 1))

/-- Both parts together, at most the greatest number of 32 bits. -/
def Usage.total (usage : Usage) : UInt32 :=
  clampWord32 (usage.inputTokens.toNat + usage.outputTokens.toNat)

/-- A generated text, and what it cost if that is known. -/
structure Generation where
  text : String
  usage : Option Usage

/-- The tokens to charge for a generation. -/
def Generation.tokens (generation : Generation) : UInt64 :=
  ((generation.usage.map Usage.total).getD 0).toUInt64

/-- A text generator under its name. -/
structure Generator (σ : Type) where
  name : String
  answer : GenerationRequest → σ → Except Failure Generation × σ

end SkillEngine
