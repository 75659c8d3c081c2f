import SkillEngine.Codec.Record
import SkillEngine.Execution.Context

/-!
# Documents about runs

The document form of a context's parts and of the result that a run ends with.
-/

namespace SkillEngine

/-- The fields of a generator choice. -/
def AiConfig.record : Record AiConfig AiConfig :=
  AiConfig.mk <$> .required "provider" .text (·.provider)
    <*> .optional "model" .text (·.model)

/-- Generator choices. -/
def AiConfig.codec : Codec AiConfig := AiConfig.record.codec

/-- The fields of a cursor position. -/
def CursorPosition.record : Record CursorPosition CursorPosition :=
  CursorPosition.mk <$> .required "line" .word32 (·.line) <*> .required "ch" .word32 (·.ch)

/-- Cursor positions. -/
def CursorPosition.codec : Codec CursorPosition := CursorPosition.record.codec

/-- The fields of the surroundings. -/
def Environment.record : Record Environment Environment :=
  Environment.mk <$> .optional "documentPath" .text (·.documentPath)
    <*> .optional "selection" .text (·.selection)
    <*> .optional "cursorPosition" CursorPosition.codec (·.cursorPosition)
    <*> .optional "workspacePath" .text (·.workspacePath)

/-- Surroundings. -/
def Environment.codec : Codec Environment := Environment.record.codec

/-- Levels of log lines by name. -/
def LogLevel.codec : Codec LogLevel := .choice LogLevel.all LogLevel.name

/-- The fields of the figures about a run. -/
def ExecutionDetails.record : Record ExecutionDetails ExecutionDetails :=
  ExecutionDetails.mk <$> .required "stepsExecuted" .count (·.stepsExecuted)
    <*> .required "executionTime" .count (·.executionTime)
    <*> .optional "tokensUsed" .word64 (·.tokensUsed)

/-- Figures about runs. -/
def ExecutionDetails.codec : Codec ExecutionDetails := ExecutionDetails.record.codec

/-- The fields of a result. -/
def SkillResult.record : Record SkillResult SkillResult :=
  SkillResult.mk <$> .required "success" .bool (·.success)
    <*> .optional "output" .any (·.output)
    <*> .optional "error" .text (·.error)
    <*> .optional "details" ExecutionDetails.codec (·.details)
    <*> .optional "intermediateResults" .object (·.intermediateResults)

/-- Results. -/
def SkillResult.codec : Codec SkillResult := SkillResult.record.codec

end SkillEngine
