import SkillEngine.Config.Settings
import SkillEngine.Number.Shortest
import SkillEngine.Text.Blank

/-!
# Checking settings

What is wrong or noteworthy about settings.  Settings with an error cannot be used; warnings and
remarks are only shown.
-/

namespace SkillEngine

/-- How much an issue weighs. -/
inductive Severity where
  | error
  | warning
  | info
  deriving DecidableEq

namespace Severity

/-- The name of a severity. -/
def name : Severity → String
  | error => "error"
  | warning => "warning"
  | info => "info"

/-- The sign in front of an issue. -/
def icon : Severity → String
  | error => "❌"
  | warning => "⚠️ "
  | info => "💡"

end Severity

/-- Something to say about a setting. -/
structure Issue where
  field : String
  message : String
  severity : Severity
  hint : Option String
  deriving DecidableEq

namespace Issue

/-- An issue in one line. -/
def line (issue : Issue) : String := issue.field ++ ": " ++ issue.message

/-- An issue as it is shown. -/
def display (issue : Issue) : String :=
  issue.severity.icon ++ " " ++ issue.line ++
    match issue.hint with
    | some hint => "\n   ↳ " ++ hint
    | none => ""

end Issue

/-- What there is to say about the provider and its key. -/
def AiSettings.providerIssues (settings : AiSettings) : List Issue :=
  if Text.isBlankString settings.provider then
    [⟨"ai.provider", "provider is empty", .error, some "Set to e.g. 'anthropic'"⟩]
  else if settings.provider = "anthropic" ∧ settings.apiKey = none then
    [⟨"ai.api_key", "no API key, prompt skills will fail", .info,
      some "Set ai.api_key or export ANTHROPIC_API_KEY"⟩]
  else []

/-- What there is to say about the temperature. -/
def AiSettings.temperatureIssues (settings : AiSettings) : List Issue :=
  if settings.temperature.inUnitInterval then []
  else
    [⟨"ai.temperature",
      "temperature " ++ FloatLayout.plain.anyText settings.temperature ++ " is out of range",
      .error, some "Temperature must be between 0.0 and 1.0"⟩]

/-- What there is to say about the number of tokens. -/
def AiSettings.tokenIssues (settings : AiSettings) : List Issue :=
  if settings.maxTokens = 0 then
    [⟨"ai.max_tokens", "max_tokens is 0, generations would be empty", .error,
      some "Set to e.g. 1000"⟩]
  else []

/-- The schemes that an address may have. -/
def webSchemes : List String := ["http://", "https://"]

/-- What there is to say about the address of the service. -/
def AiSettings.urlIssues (settings : AiSettings) : List Issue :=
  match settings.baseUrl with
  | none => []
  | some url =>
    if webSchemes.any fun scheme => scheme.toList.isPrefixOf url.toList then []
    else [⟨"ai.base_url", "base_url '" ++ url ++ "' is not an http(s) URL", .warning, none⟩]

/-- The formats of a log. -/
def logFormats : List String := ["pretty", "json", "compact"]

/-- The levels of a log. -/
def logLevels : List String := ["trace", "debug", "info", "warn", "error"]

/-- What there is to say about a value that should be one of several. -/
def choiceIssues (field what value : String) (allowed : List String) : List Issue :=
  if value ∈ allowed then []
  else
    [⟨field, "unknown log " ++ what ++ " '" ++ value ++ "'", .warning,
      some ("Valid values: " ++ Text.joinStrings ", " allowed)⟩]

namespace Settings

/-- Everything that there is to say about settings. -/
def issues (settings : Settings) : List Issue :=
  settings.ai.providerIssues ++ settings.ai.temperatureIssues ++ settings.ai.tokenIssues ++
    settings.ai.urlIssues ++
    choiceIssues "logging.format" "format" settings.logging.format logFormats ++
    choiceIssues "logging.level" "level" settings.logging.level logLevels

/-- The issues that keep settings from being used. -/
def errors (settings : Settings) : List Issue := settings.issues.filter (·.severity = .error)

/-- Errors in one text. -/
def errorText (errors : List Issue) : String :=
  "Configuration errors:\n  • " ++ Text.joinStrings "\n  • " (errors.map Issue.line)

/-- The warnings and remarks about usable settings, or the errors in one text. -/
def validate (settings : Settings) : Except String (List Issue) :=
  if settings.errors.isEmpty then .ok settings.issues else .error (errorText settings.errors)

end Settings

end SkillEngine
