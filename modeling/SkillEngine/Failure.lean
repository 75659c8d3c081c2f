import SkillEngine.Codec.Basic
import SkillEngine.Text.Pieces

/-!
# Failures

Everything that can go wrong has one type, and the wording of each failure is in one function.
-/

namespace SkillEngine

/-- Why the file system refused. -/
inductive FileFault where
  | notFound
  | exists
  | notDirectory
  | isDirectory
  | nameTooLong
  | busy
  | zeroByte
  | notText
  | other (text : String)
  deriving DecidableEq

/-- The system's words for a refusal. -/
def FileFault.message : FileFault → String
  | .notFound => "No such file or directory (os error 2)"
  | .exists => "File exists (os error 17)"
  | .notDirectory => "Not a directory (os error 20)"
  | .isDirectory => "Is a directory (os error 21)"
  | .nameTooLong => "File name too long (os error 36)"
  | .busy => "Device or resource busy (os error 16)"
  | .zeroByte => "file name contained an unexpected NUL byte"
  | .notText => "stream did not contain valid UTF-8"
  | .other text => text

/-- A name between backticks. -/
def tick (name : String) : String := "\x60" ++ name ++ "\x60"

/-- What a reader expects in place of an unknown variant. -/
def expectedNames : List String → String
  | [] => "there are no variants"
  | [only] => "expected " ++ tick only
  | [first, second] => "expected " ++ tick first ++ " or " ++ tick second
  | names => "expected one of " ++ Text.joinStrings ", " (names.map tick)

/-- The wording of a decoding error. -/
def DecodeError.message : DecodeError → String
  | .missingField name => "missing field " ++ tick name
  | .unknownVariant given expected =>
    "unknown variant " ++ tick given ++ ", " ++ expectedNames expected
  | .malformed => "malformed document"

/-- Why an operation failed. -/
inductive Failure where
  | invalid (violations : List String)
  | notFound (name : String)
  | alreadyExists (skill : String)
  | conflict (text : String)
  | notEnabled (skill : String)
  | dependencyNotMet (step : String)
  | unsupportedStep (kind : String)
  | missingParameter (name : String)
  | subSkillFailed (skill reason : String)
  | recursionLimit (depth : Nat)
  | serviceUnavailable (provider : String)
  | generation (text : String)
  | toolNotFound (tool : String)
  | pluginNotEnabled (plugin : String)
  | toolExecution (tool reason : String)
  | config (text : String)
  | storage (text : String)
  | file (fault : FileFault)
  | serialization (text : String)
  | other (text : String)
  deriving DecidableEq

namespace Failure

/-- The wording of a failure. -/
def message : Failure → String
  | invalid violations => "invalid skill: " ++ Text.joinStrings ", " violations
  | notFound name => "skill not found: " ++ name
  | alreadyExists skill => "skill already registered: " ++ skill
  | conflict text => "conflict: " ++ text
  | notEnabled skill => "skill is not enabled: " ++ skill
  | dependencyNotMet step => "dependency not met: " ++ step
  | unsupportedStep kind => "unsupported step type: " ++ kind
  | missingParameter name => "missing required parameter: " ++ name
  | subSkillFailed skill reason => "sub-skill " ++ skill ++ " failed: " ++ reason
  | recursionLimit depth => "skill nesting too deep: " ++ toString depth ++ " levels"
  | serviceUnavailable provider => "service not available: " ++ provider
  | generation text => "generation failed: " ++ text
  | toolNotFound tool => "tool not found: " ++ tool
  | pluginNotEnabled plugin => "plugin not enabled: " ++ plugin
  | toolExecution tool reason => "tool execution failed: " ++ tool ++ ": " ++ reason
  | config text => "config error: " ++ text
  | storage text => "storage error: " ++ text
  | file fault => "io error: " ++ fault.message
  | serialization text => "serialization error: " ++ text
  | other text => text

/-- A document could not be read. -/
def ofDecodeError (error : DecodeError) : Failure := serialization error.message

end Failure

end SkillEngine
