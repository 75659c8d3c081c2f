import SkillEngine.Config.Settings
import SkillEngine.Execution.Codec
import SkillEngine.Execution.Run
import SkillEngine.Json.Printer
import SkillEngine.Skill.Basic
import SkillEngine.Toml.Printer
import SkillEngine.Tool.Builtin

/-!
# What is shown

The lines in which skills, tools, settings and results appear on a terminal.
-/

namespace SkillEngine.CommandLine

/-- A text in a style of the terminal, which has a number. -/
def styled (style : Nat) (text : String) : String :=
  "\x1b[" ++ toString style ++ "m" ++ text ++ "\x1b[0m"

/-- Bold. -/
def bold : String → String := styled 1

/-- Faint. -/
def faint : String → String := styled 2

/-- Red. -/
def red : String → String := styled 31

/-- Cyan. -/
def cyan : String → String := styled 36

/-- What is said of something that is switched off. -/
def stateMark (enabled : Bool) : String := if enabled then "" else " " ++ faint "(disabled)"

/-- A skill among others. -/
def skillSummary (skill : Skill) : List String :=
  ["  " ++ cyan skill.id ++ " " ++ skill.name ++ " [" ++ skill.category.name ++ "/" ++
      skill.definition.kindName ++ "]" ++ stateMark skill.enabled,
    "    " ++ skill.description, ""]

/-- The list of skills. -/
def skillList (skills : List Skill) : List String :=
  if skills.isEmpty then
    ["No skills registered.", "  Add the builtin library with: quill skill builtin"]
  else bold ("Skills (" ++ toString skills.length ++ "):") :: "" :: skills.flatMap skillSummary

/-- What a search found. -/
def searchList (query : String) (skills : List Skill) : List String :=
  if skills.isEmpty then ["No skills matching '" ++ query ++ "'."]
  else skills.flatMap skillSummary

/-- A parameter of a skill. -/
def parameterLines (parameter : Parameter) : List String :=
  let default := match parameter.default with
    | some value => " [default: " ++ value.compact ++ "]"
    | none => ""
  ["    " ++ parameter.name ++ ": " ++ parameter.kind.title ++
      (if parameter.required then " (required)" else "") ++ default,
    "      " ++ parameter.description]

/-- A step of a workflow and its position. -/
def stepLine (entry : Step × Nat) : String :=
  let (step, position) := entry
  "    " ++ toString (position + 1) ++ ". " ++ step.id ++ " [" ++ step.kind.name ++ "] " ++
    step.name ++
    if step.dependsOn.isEmpty then "" else " after " ++ Text.joinStrings ", " step.dependsOn

/-- What a definition consists of. -/
def definitionLines : Definition → List String
  | .workflow value => "" :: ("  " ++ bold "Steps:") :: value.steps.zipIdx.map stepLine
  | .tool value => ["", "  Tool: " ++ value.tool]
  | .hybrid value =>
    "" :: ("  " ++ bold "Sub-skills:") :: value.skills.map fun entry => "    " ++ entry.skill
  | .prompt _ => []

/-- The heading of parameters with their lines, if there are any. -/
def parameterSection (parameters : List Parameter) : List String :=
  if parameters.isEmpty then []
  else "" :: ("  " ++ bold "Parameters:") :: parameters.flatMap parameterLines

/-- A skill with all that is known of it. -/
def skillDetails (skill : Skill) : List String :=
  [bold skill.name ++ " v" ++ skill.version ++ " (" ++ skill.id ++ ")", "  " ++ skill.description,
    "  Category: " ++ skill.category.name, "  Type: " ++ skill.definition.kindName,
    "  Enabled: " ++ (if skill.enabled then "true" else "false")] ++
    (skill.author.map ("  Author: " ++ ·)).toList ++
    (if skill.tags.isEmpty then [] else ["  Tags: " ++ Text.joinStrings ", " skill.tags]) ++
    (skill.shortcut.map ("  Shortcut: " ++ ·)).toList ++ parameterSection skill.parameters ++
    definitionLines skill.definition

/-- The plugin of some tools with those tools, if it provides any of them. -/
def pluginLines (tools : List ToolInfo) (entry : Manifest × Bool) : List String :=
  let (manifest, enabled) := entry
  let provided := tools.filter (·.plugin == manifest.id)
  if provided.isEmpty then []
  else
    (bold manifest.name ++ " v" ++ manifest.version ++ " (" ++ manifest.id ++ ")" ++
      stateMark enabled) ::
      provided.map (fun tool => "  " ++ cyan tool.name ++ " " ++ tool.description) ++ [""]

/-- Tools by plugin. -/
def toolList (plugins : List (Manifest × Bool)) (tools : List ToolInfo) : List String :=
  plugins.flatMap (pluginLines tools) ++ if tools.isEmpty then ["No tools found."] else []

/-- Settings with their key hidden. -/
def hideKey (settings : Settings) : Settings :=
  { settings with ai := { settings.ai with apiKey := settings.ai.apiKey.map fun _ => "********" } }

/-- Settings and the path that they belong to. -/
def settingsLines (path : String) (settings : Settings) (asJson : Bool) : List String :=
  let document := Settings.codec.encode (hideKey settings)
  if asJson then [document.pretty] else ["# " ++ path, Toml.sections document]

/-- The version of the program. -/
def version : String := "0.1.0"

/-- The version and how the program was built. -/
def versionLines (facts : HostFacts) : List String :=
  ["Quill v" ++ version, "   Rust edition: 2024", "   Target: " ++ facts.arch,
    "   OS: " ++ facts.platform, "   Profile: " ++ facts.profile]

/-- What is shown while a skill runs: its progress, and the errors in its log. -/
def eventLine? : Event → Option String
  | .progressed done total message =>
    some (faint ("[" ++ toString done ++ "/" ++ toString total ++ "] " ++ message))
  | .logged ⟨.error, text⟩ => some (red "[error]" ++ " " ++ text)
  | .logged _ | .generated _ _ _ | .invoked _ _ _ => none

/-- The output of a result as text. -/
def outputText : Json → String
  | .string text => text
  | other => other.pretty

/-- The figures of a run. -/
def detailsLine (details : ExecutionDetails) : String :=
  faint (toString details.stepsExecuted ++ " steps in " ++ toString details.executionTime ++ "ms" ++
    match details.tokensUsed with
    | some tokens => ", " ++ toString tokens.toNat ++ " tokens"
    | none => "")

/-- A result: what is printed and what is reported. -/
def resultLines (result : SkillResult) (asJson : Bool) : List String × List String :=
  if asJson then ([(SkillResult.codec.encode result).pretty], [])
  else
    let figures := (result.details.map detailsLine).toList
    match result.output, result.error with
    | some output, _ => ([outputText output], figures)
    | none, some error => ([], ("❌ " ++ error) :: figures)
    | none, none => ([], figures)

end SkillEngine.CommandLine
