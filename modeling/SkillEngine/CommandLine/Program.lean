import SkillEngine.CommandLine.Command
import SkillEngine.CommandLine.Display
import SkillEngine.Config.Loader
import SkillEngine.Execution.Engine
import SkillEngine.Generator.Messages
import SkillEngine.Registry.Basic

/-!
# The program

What a command line does: it loads the settings, opens the registry, adds the library to it when
the settings say so, and carries out its command.  The outcome is what the program prints, what it
reports, how it ends, and the files that it leaves.
-/

namespace SkillEngine.CommandLine

/-- What a program finds when it starts. -/
structure Process where
  surroundings : Surroundings
  files : FileSystem
  facts : HostFacts

/-- The directory in which the program was started. -/
def Process.directory (process : Process) : String := Path.ofParts true process.files.current

/-- What a command leads to: printed and reported lines, the files, and the failure if it fails. -/
structure Report where
  printed : List String
  reported : List String
  files : FileSystem
  failure : Option Failure

/-- How a program ends. -/
structure Ending where
  code : Nat
  output : String
  errors : String
  files : FileSystem

/-- Lines as a text. -/
def linesText (lines : List String) : String := String.join (lines.map (· ++ "\n"))

/-- How a program ends with a report. -/
def Report.ending (report : Report) : Ending where
  code := if report.failure.isSome then 1 else 0
  output := linesText report.printed
  errors := linesText (report.reported ++
    (report.failure.map fun failure => "❌ Error: " ++ failure.message).toList)
  files := report.files

/-- A report of printed lines. -/
def Report.lines (files : FileSystem) (printed : List String) : Report :=
  ⟨printed, [], files, none⟩

/-- A report of a failure alone. -/
def Report.ofFailure (files : FileSystem) (failure : Failure) : Report :=
  ⟨[], [], files, some failure⟩

/-- The report of an operation of a registry. -/
def Report.managed {α : Type} (managed : Managed α) (render : α → List String) : Report :=
  match managed.outcome with
  | .ok value => .lines managed.files (render value)
  | .error failure => .ofFailure managed.files failure

variable {σ : Type}

/-- The service that the settings describe; without a key there is none. -/
def service? (settings : AiSettings) : Option MessagesService :=
  settings.apiKey.map fun key =>
    let plain := MessagesService.ofKey key
    { plain with
      baseUrl := settings.baseUrl.getD plain.baseUrl
      model := settings.model.getD plain.model
      maxTokens := settings.maxTokens
      temperature := settings.temperature }

/-- The generators that the settings provide. -/
def router (send : Http.Transport σ) (settings : AiSettings) : Router σ :=
  let router := match service? settings with
    | some service => Router.empty.add (service.generator send)
    | none => Router.empty
  router.setDefault settings.provider

/-- The value of a parameter: a document, or else the text. -/
def parameterValue (text : String) : Json := (Json.read? text).getD (.string text)

/-- The context of a run that was asked for. -/
def runContext (process : Process) (settings : AiSettings) (parameters : List (String × String))
    (document : Option String) : Context where
  input := Dict.ofList (parameters.map fun entry => (entry.1, parameterValue entry.2))
  environment :=
    { documentPath := document, selection := none, cursorPosition := none
      workspacePath := some process.directory }
  aiConfig := ⟨settings.provider, settings.model⟩
  state := .empty

/-- Run a skill and show its result. -/
def runSkill (send : Http.Transport σ) (world : σ) (process : Process) (settings : Settings)
    (registry : Registry) (id : String) (parameters : List (String × String))
    (document : Option String) (asJson : Bool) : Report :=
  let backends : Backends σ := ⟨router send settings.ai, (Host.builtin process.facts : Host σ)⟩
  let context := runContext process settings.ai parameters document
  let ran := execute backends registry.skills id context world
  let (result, _) := ran.value
  let (printed, reported) := resultLines result asJson
  { printed := printed
    reported := ran.events.filterMap eventLine? ++ reported
    files := process.files
    failure := if result.success then none else some (.other ("skill " ++ id ++ " failed")) }

/-- Read the document of a file and import it. -/
def importFile (process : Process) (registry : Registry) (path : String) : Report :=
  match process.files.readText path with
  | .error fault => .ofFailure process.files (.file fault)
  | .ok text =>
    match Json.read? text with
    | none => .ofFailure process.files (.ofDecodeError .malformed)
    | some document =>
      .managed (registry.importDocument process.files document) fun skill =>
        ["✅ Imported " ++ skill.name ++ " (" ++ skill.id ++ ")"]

/-- Print the document of a skill, or write it to a file. -/
def exportFile (process : Process) (registry : Registry) (id : String) (output : Option String) :
    Report :=
  match registry.exportDocument id, output with
  | .error failure, _ => .ofFailure process.files failure
  | .ok document, none => .lines process.files [document.pretty]
  | .ok document, some path =>
    match process.files.write path document.pretty.toUTF8 with
    | .error fault => .ofFailure process.files (.file fault)
    | .ok files => .lines files ["✅ Exported " ++ id ++ " to " ++ path]

/-- What is printed when the library was registered. -/
def registeredLines (ids : List String) : List String :=
  if ids.isEmpty then ["All builtin skills are already registered."]
  else ("✅ Registered " ++ toString ids.length ++ " builtin skills:") :: ids.map ("  " ++ ·)

/-- List the skills of a category, or all. -/
def listSkills (process : Process) (registry : Registry) : Option String → Report
  | none => .lines process.files (skillList registry.list)
  | some name =>
    match Category.ofName? name with
    | some category => .lines process.files (skillList (registry.ofCategory category))
    | none => .ofFailure process.files (.config (Category.unknown name))

/-- Open the registry of the settings, and add the library to it when they say so. -/
def openRegistry (process : Process) (settings : Settings) : Managed Unit :=
  match Registry.openStore ⟨settings.storePath process.surroundings⟩ process.files with
  | .error failure => Registry.refuse .empty process.files failure
  | .ok registry =>
    if settings.skills.loadLibrary then
      let registered := registry.registerLibrary process.files
      { registered with outcome := registered.outcome.map fun _ => () }
    else ⟨.ok (), registry, process.files⟩

/-- Carry out a command on an open registry.  Commands on other things print nothing here. -/
def onRegistry (send : Http.Transport σ) (world : σ) (process : Process) (settings : Settings)
    (registry : Registry) : Command → Report
  | .listSkills category => listSkills process registry category
  | .showSkill id =>
    .lines process.files
      (match registry.skills.find? id with
      | some skill => skillDetails skill
      | none => ["Skill '" ++ id ++ "' not found."])
  | .searchSkills query => .lines process.files (searchList query (registry.search query))
  | .runSkill id parameters document asJson =>
    runSkill send world process settings registry id parameters document asJson
  | .setEnabled id enabled =>
    .managed (registry.setEnabled process.files id enabled) fun _ =>
      ["✅ " ++ (if enabled then "Enabled " else "Disabled ") ++ id]
  | .removeSkill id =>
    .managed (registry.unregister process.files id) fun skill =>
      ["✅ Removed " ++ skill.name ++ " (" ++ skill.id ++ ")"]
  | .importSkill file => importFile process registry file
  | .exportSkill id output => exportFile process registry id output
  | .registerLibrary => .managed (registry.registerLibrary process.files) registeredLines
  | .listTools _ | .showSettings _ | .showVersion | .completions => .lines process.files []

/-- List tools, those that a query finds or all. -/
def listTools (process : Process) (query : Option String) : Report :=
  let host : Host Unit := Host.builtin process.facts
  let tools := match query with
    | some query => host.search query
    | none => host.tools
  .lines process.files (toolList host.list tools)

/-- Carry out a command with the settings that were loaded. -/
def carryOut (send : Http.Transport σ) (world : σ) (process : Process) (loader : Loader) :
    Command → Report
  | .listTools query => listTools process query
  | .showSettings asJson =>
    .lines process.files (settingsLines loader.path loader.settings asJson)
  | .showVersion => .lines process.files (versionLines process.facts)
  | .completions => .lines process.files []
  | command =>
    let opened := openRegistry process loader.settings
    match opened.outcome with
    | .error failure => .ofFailure opened.files failure
    | .ok () =>
      onRegistry send world { process with files := opened.files } loader.settings opened.registry
        command

/-- The paths that a command reads or writes beside the store. -/
def Command.paths : Command → List String
  | .importSkill file => [file]
  | .exportSkill _ (some output) => [output]
  | _ => []

/-- The paths on which the program works, as far as the files tell which they are: where the
settings cannot be read, only theirs is known. -/
def workPaths (files : FileSystem) (surroundings : Surroundings) (arguments : List String) :
    List String :=
  match invocation arguments with
  | .error _ => []
  | .ok invocation =>
    Settings.locate invocation.settingsPath surroundings ::
      match Loader.load files surroundings invocation.settingsPath with
      | .error _ => []
      | .ok loader =>
        let store : Store := ⟨loader.settings.storePath surroundings⟩
        store.path :: store.draftPath :: invocation.command.paths

/-- The text of a version that was asked for at a command. -/
def versionText (names : List String) : String :=
  Text.joinStrings "-" names ++ " " ++ version ++ "\n"

/-- The program: its arguments, and how it ends. -/
def run (send : Http.Transport σ) (world : σ) (process : Process) (arguments : List String) :
    Ending :=
  match invocation arguments with
  | .error .usage => ⟨2, "", "", process.files⟩
  | .error .help => ⟨0, "", "", process.files⟩
  | .error (.version names) => ⟨0, versionText names, "", process.files⟩
  | .ok invocation =>
    match Loader.load process.files process.surroundings invocation.settingsPath with
    | .error failure => (Report.ofFailure process.files failure).ending
    | .ok loader => (carryOut send world process loader invocation.command).ending

end SkillEngine.CommandLine
