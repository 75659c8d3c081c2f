import SkillEngine.Config.Validation
import SkillEngine.Failure
import SkillEngine.FileSystem.Basic
import SkillEngine.Toml.Reader

/-!
# Loading settings

Settings come from a file, over which the variables of the process are laid.  A loader remembers
the path and the settings that were loaded last; reloading either replaces them or leaves them as
they are.
-/

namespace SkillEngine

/-- The variables of a process. -/
abbrev Variables := Dict String

/-- Where a process looks for its files: its variables, and the home directory of the account under
which it runs, if that has one. -/
structure Surroundings where
  vars : Variables
  accountHome : Option String

instance : Coe Variables Surroundings := ⟨fun vars => ⟨vars, none⟩⟩

namespace Surroundings

/-- The home directory: that of the variable, unless it is empty, or else that of the account. -/
def home? (surroundings : Surroundings) : Option String :=
  ((Dict.find? surroundings.vars "HOME").filter (!·.isEmpty)).or surroundings.accountHome

/-- A file of the engine in the home directory, or in the current one where there is none. -/
def homeFile (surroundings : Surroundings) (name : String) : String :=
  Path.below (Path.below (surroundings.home?.getD ".") ".quill") name

end Surroundings

namespace Settings

/-- The path of the settings: the given one, or that of a variable, or the one under the home
directory. -/
def locate (explicit : Option String) (surroundings : Surroundings) : String :=
  (explicit.or (Dict.find? surroundings.vars "QUILL_CONFIG")).getD
    (surroundings.homeFile "quill.toml")

/-- The path of the skill store. -/
def storePath (settings : Settings) (surroundings : Surroundings) : String :=
  settings.skills.path.getD (surroundings.homeFile "skills.json")

/-- The settings with those of the variables in their place.  Only the key of the file is
preferred over that of a variable. -/
def override (vars : Variables) (settings : Settings) : Settings where
  ai :=
    { settings.ai with
      provider := (Dict.find? vars "QUILL_AI_PROVIDER").getD settings.ai.provider
      model := (Dict.find? vars "QUILL_AI_MODEL").or settings.ai.model
      apiKey := settings.ai.apiKey.or (Dict.find? vars "ANTHROPIC_API_KEY") }
  skills :=
    { settings.skills with
      path := (Dict.find? vars "QUILL_SKILLS_PATH").or settings.skills.path }
  logging :=
    { settings.logging with
      level := (Dict.find? vars "QUILL_LOG_LEVEL").getD settings.logging.level }

/-- The settings that a text holds. -/
def ofText (text : String) : Except DecodeError Settings :=
  match Toml.read? text with
  | some document => codec.decode .configured document
  | none => .error .malformed

/-- The settings that a file holds. -/
def ofFile (files : FileSystem) (path : String) : Except Failure Settings :=
  match files.readText path with
  | .error fault => .error (.file fault)
  | .ok text =>
    match ofText text with
    | .ok settings => .ok settings
    | .error error => .error (.config ("failed to parse " ++ path ++ ": " ++ error.message))

/-- Lay variables over settings and check the outcome. -/
def accept (vars : Variables) (settings : Settings) : Except Failure Settings :=
  match (settings.override vars).validate with
  | .ok _ => .ok (settings.override vars)
  | .error text => .error (.config text)

end Settings

/-- The settings that were loaded last, and where they come from. -/
structure Loader where
  path : String
  settings : Settings

namespace Loader

/-- Load settings; a file that is not there stands for the defaults. -/
def load (files : FileSystem) (surroundings : Surroundings) (explicit : Option String) :
    Except Failure Loader := do
  let path := Settings.locate explicit surroundings
  let found ← if files.exists? path then Settings.ofFile files path else .ok Settings.default
  .ok ⟨path, ← found.accept surroundings.vars⟩

/-- Load the settings again from the same path, where there has to be a file. -/
def reload (loader : Loader) (files : FileSystem) (vars : Variables) :
    Except Failure Loader := do
  if files.exists? loader.path then
    .ok { loader with settings := ← (← Settings.ofFile files loader.path).accept vars }
  else .error (.config ("config file not found: " ++ loader.path))

end Loader

end SkillEngine
