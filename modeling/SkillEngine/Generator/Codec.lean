import SkillEngine.Codec.Record
import SkillEngine.Generator.Basic

/-!
# Documents about generations

The document form of the settings of a request and of the tokens that an answer cost.
-/

namespace SkillEngine

/-- The fields of the settings of a request. -/
def GenerationOptions.record : Record GenerationOptions GenerationOptions :=
  GenerationOptions.mk <$> .optional "systemPrompt" .text (·.systemPrompt)
    <*> .optional "model" .text (·.model)
    <*> .optional "temperature" .single (·.temperature)
    <*> .optional "maxTokens" .word32 (·.maxTokens)

/-- Settings of requests. -/
def GenerationOptions.codec : Codec GenerationOptions := GenerationOptions.record.codec

/-- The fields of a count of tokens. -/
def Usage.record : Record Usage Usage :=
  Usage.mk <$> .required "input_tokens" .word32 (·.inputTokens)
    <*> .required "output_tokens" .word32 (·.outputTokens)

/-- Counts of tokens. -/
def Usage.codec : Codec Usage := Usage.record.codec

end SkillEngine
