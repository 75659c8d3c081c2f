import SkillEngine.CommandLine.Arguments

/-!
# Commands

The commands of the program, and what a command line asks for.
-/

namespace SkillEngine.CommandLine

/-- A command with everything that it is given. -/
inductive Command where
  | listSkills (category : Option String)
  | showSkill (id : String)
  | searchSkills (query : String)
  | runSkill (id : String) (parameters : List (String × String)) (document : Option String)
      (asJson : Bool)
  | setEnabled (id : String) (enabled : Bool)
  | removeSkill (id : String)
  | importSkill (file : String)
  | exportSkill (id : String) (output : Option String)
  | registerLibrary
  | listTools (query : Option String)
  | showSettings (asJson : Bool)
  | showVersion
  | completions

/-- A command and the path of the settings that it is given. -/
structure Invocation where
  settingsPath : Option String
  command : Command

/-- An option with a value. -/
def valued (name : String) (short : Option Char) (rule : ValueRule) : OptionSpec :=
  ⟨name, short, some rule, false⟩

/-- An option without a value. -/
def flag (name : String) (short : Option Char) : OptionSpec := ⟨name, short, none, false⟩

/-- The options that every command takes. -/
def globalOptions : List OptionSpec :=
  [valued "config" (some 'c') .path, valued "log-level" (some 'l') .any,
    flag "verbose" (some 'v'), flag "quiet" (some 'q')]

/-- A command without commands below it. -/
def leaf (name : String) (options : List OptionSpec) (arguments : List ValueRule) : CommandSpec :=
  .mk name (globalOptions ++ options) arguments []

/-- A command that groups others. -/
def group (name : String) (children : List CommandSpec) : CommandSpec :=
  .mk name globalOptions [] children

/-- The commands on skills. -/
def skillCommands : List CommandSpec :=
  [leaf "list" [valued "category" none .any] [], leaf "show" [] [.any], leaf "search" [] [.any],
    leaf "run"
      [⟨"param", some 'p', some .pair, true⟩, valued "document" none .path, flag "json" none]
      [.any],
    leaf "enable" [] [.any], leaf "disable" [] [.any], leaf "remove" [] [.any],
    leaf "import" [] [.path], leaf "export" [valued "output" (some 'o') .path] [.any],
    leaf "builtin" [] []]

/-- The shells for which completions can be made. -/
def shells : List String := ["bash", "elvish", "fish", "powershell", "zsh"]

/-- The program. -/
def program : CommandSpec :=
  group "quill"
    [group "skill" skillCommands, group "tool" [leaf "list" [valued "search" none .any] []],
      leaf "config" [flag "json" none] [], leaf "version" [] [],
      leaf "completions" [] [.oneOf shells]]

/-- The name and the value of a parameter. -/
def parameter (text : String) : String × String :=
  (String.ofList (text.toList.takeWhile (· != '=')),
    String.ofList ((text.toList.dropWhile (· != '=')).drop 1))

/-- The command that was asked for. -/
def Parsed.command? (parsed : Parsed) : Option Command :=
  match parsed.commands.tail, parsed.arguments with
  | ["skill", "list"], _ => some (.listSkills (parsed.option? "category"))
  | ["skill", "show"], [id] => some (.showSkill id)
  | ["skill", "search"], [query] => some (.searchSkills query)
  | ["skill", "run"], [id] =>
    some (.runSkill id ((parsed.values "param").map parameter) (parsed.option? "document")
      (parsed.has "json"))
  | ["skill", "enable"], [id] => some (.setEnabled id true)
  | ["skill", "disable"], [id] => some (.setEnabled id false)
  | ["skill", "remove"], [id] => some (.removeSkill id)
  | ["skill", "import"], [file] => some (.importSkill file)
  | ["skill", "export"], [id] => some (.exportSkill id (parsed.option? "output"))
  | ["skill", "builtin"], _ => some .registerLibrary
  | ["tool", "list"], _ => some (.listTools (parsed.option? "search"))
  | ["config"], _ => some (.showSettings (parsed.has "json"))
  | ["version"], _ => some .showVersion
  | ["completions"], _ => some .completions
  | _, _ => none

/-- What the arguments of the program ask for. -/
def invocation (arguments : List String) : Except Stop Invocation := do
  let parsed ← parse ("verbose", "quiet") program arguments
  match parsed.command? with
  | some command => .ok ⟨parsed.option? "config", command⟩
  | none => .error .usage

end SkillEngine.CommandLine
