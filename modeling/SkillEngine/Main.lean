import SkillEngine.CommandLine.Program
import SkillEngine.FileSystem.Snapshot

/-!
# The executable

It reads the variables, the home directory of the account and the files that the program works on,
runs the program on them, makes its changes on the disk and prints what it says.
-/

namespace SkillEngine.Executable

/-- The variables that the program knows. -/
def variableNames : List String :=
  ["HOME", "QUILL_CONFIG", "QUILL_AI_PROVIDER", "QUILL_AI_MODEL", "QUILL_SKILLS_PATH",
    "QUILL_LOG_LEVEL", "ANTHROPIC_API_KEY"]

/-- The variables that are set. -/
def readVariables : IO Variables :=
  variableNames.foldlM (fun vars name => do
    match ← IO.getEnv name with
    | some value => return Dict.insert vars name value
    | none => return vars) []

/-- The number of the user in the status of a process. -/
def userOf? (status : String) : Option String :=
  (status.splitOn "\n").findSome? fun line =>
    match line.splitOn "\t" with
    | "Uid:" :: user :: _ => some user
    | _ => none

/-- The home directory of a user in the table of accounts. -/
def homeOf? (accounts user : String) : Option String :=
  (accounts.splitOn "\n").findSome? fun line =>
    match line.splitOn ":" with
    | [_, _, number, _, _, home, _] => if number = user then some home else none
    | _ => none

/-- The home directory of the account under which the program runs, where the system has the usual
tables. -/
def readAccountHome : IO (Option String) := do
  try
    let status ← IO.FS.readFile "/proc/self/status"
    let accounts ← IO.FS.readFile "/etc/passwd"
    return (userOf? status).bind (homeOf? accounts)
  catch _ => return none

/-- What stands at a place of the disk. -/
def readEntry (place : Location) : IO (Option Entry) := do
  let path := (← IO.currentDir) / Path.ofParts true place
  if ← path.isDir then return some .directory
  if ← path.pathExists then return some (.file (← IO.FS.readBinFile path))
  return none

/-- A snapshot with the places of more paths. -/
def look (files : FileSystem) (paths : List String) : IO FileSystem :=
  (paths.flatMap (files.placesOf ·)).eraseDups.foldlM (fun files place => do
    match ← readEntry place with
    | some entry => return files.put place entry
    | none => return files) files

/-- Make a change on the disk.  A file is written beside its place and then put there. -/
def makeChange (place : Location) : Change → IO Unit
  | .remove => IO.FS.removeFile (Path.ofParts true place)
  | .makeDirectory => IO.FS.createDir (Path.ofParts true place)
  | .write content => do
    let path := Path.ofParts true place
    IO.FS.writeBinFile (path ++ ".tmp") content
    IO.FS.rename (path ++ ".tmp") path

/-- The host for which the executable is built. -/
def facts : HostFacts := ⟨"linux", "x86_64", "unix", 1, "release"⟩

/-- Run the program, and return its exit code. -/
def run (arguments : List String) : IO UInt32 := do
  let surroundings : Surroundings := ⟨← readVariables, ← readAccountHome⟩
  let unseen : FileSystem := ⟨[], Path.parts (← IO.currentDir).toString⟩
  let settings ← look unseen (CommandLine.workPaths unseen surroundings arguments)
  let files ← look settings (CommandLine.workPaths settings surroundings arguments)
  let ending := CommandLine.run Http.offline () ⟨surroundings, files, facts⟩ arguments
  for (place, change) in files.changes ending.files do makeChange place change
  IO.print ending.output
  IO.eprint ending.errors
  return UInt32.ofNat ending.code

end SkillEngine.Executable

/-- The entry point. -/
def main (arguments : List String) : IO UInt32 := SkillEngine.Executable.run arguments
