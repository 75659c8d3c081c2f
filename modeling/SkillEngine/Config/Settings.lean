import SkillEngine.Codec.Record
import SkillEngine.FileSystem.Path

/-!
# Settings

The configuration of the engine: which generator to use and how, where skills are kept, and how
much is logged.  Everything has a default.
-/

namespace SkillEngine

/-- The settings of text generation. -/
structure AiSettings where
  provider : String
  model : Option String
  maxTokens : UInt32
  temperature : Single
  apiKey : Option String
  baseUrl : Option String
  deriving DecidableEq

/-- The settings of the skill store. -/
structure StoreSettings where
  path : Option String
  loadLibrary : Bool
  deriving DecidableEq

/-- The settings of the log. -/
structure LogSettings where
  level : String
  format : String
  deriving DecidableEq

/-- The configuration. -/
structure Settings where
  ai : AiSettings
  skills : StoreSettings
  logging : LogSettings
  deriving DecidableEq

/-- The default settings of text generation. -/
def AiSettings.default : AiSettings :=
  ⟨"anthropic", none, 1000, .ofDecimal false 7 (-1), none, none⟩

/-- The default settings of the skill store. -/
def StoreSettings.default : StoreSettings := ⟨none, true⟩

/-- The default settings of the log. -/
def LogSettings.default : LogSettings := ⟨"info", "pretty"⟩

/-- The default configuration. -/
def Settings.default : Settings :=
  ⟨AiSettings.default, StoreSettings.default, LogSettings.default⟩

/-- The fields of the settings of text generation. -/
def AiSettings.record : Record AiSettings AiSettings :=
  AiSettings.mk <$> .withDefault "provider" .text AiSettings.default.provider (·.provider)
    <*> .nullable "model" .text (·.model)
    <*> .withDefault "max_tokens" .word32 AiSettings.default.maxTokens (·.maxTokens)
    <*> .withDefault "temperature" .single AiSettings.default.temperature (·.temperature)
    <*> .nullable "api_key" .text (·.apiKey)
    <*> .nullable "base_url" .text (·.baseUrl)

/-- The fields of the settings of the skill store. -/
def StoreSettings.record : Record StoreSettings StoreSettings :=
  StoreSettings.mk <$> .nullable "store_path" .text (·.path)
    <*> .withDefault "load_builtin" .bool StoreSettings.default.loadLibrary (·.loadLibrary)

/-- The fields of the settings of the log. -/
def LogSettings.record : Record LogSettings LogSettings :=
  LogSettings.mk <$> .withDefault "level" .text LogSettings.default.level (·.level)
    <*> .withDefault "format" .text LogSettings.default.format (·.format)

/-- The fields of the configuration. -/
def Settings.record : Record Settings Settings :=
  Settings.mk <$> .withDefault "ai" AiSettings.record.codec AiSettings.default (·.ai)
    <*> .withDefault "skills" StoreSettings.record.codec StoreSettings.default (·.skills)
    <*> .withDefault "logging" LogSettings.record.codec LogSettings.default (·.logging)

/-- Configurations. -/
def Settings.codec : Codec Settings := Settings.record.codec

end SkillEngine
