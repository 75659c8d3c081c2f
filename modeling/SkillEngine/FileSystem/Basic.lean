import SkillEngine.Failure
import SkillEngine.FileSystem.Path

/-!
# File systems

A file system is a tree of directories with files in them, and the directory where paths without
a root start.  Each operation on a path walks from directory to directory and refuses for the
first reason that it meets.
-/

namespace SkillEngine

/-- The names on the way from the root to a place. -/
abbrev Location := List String

/-- What stands at a place. -/
inductive Entry where
  | file (content : ByteArray)
  | directory

/-- A tree of files.  The root is always a directory and is not listed. -/
structure FileSystem where
  entries : List (Location × Entry)
  /-- Where paths without a root start. -/
  current : Location

/-- A change of a file system. -/
inductive FileAction where
  | makeDirectories (path : String)
  | write (path : String) (content : ByteArray)
  | rename (source target : String)

namespace FileSystem

/-- A file system without files, in which paths start at the root. -/
def empty : FileSystem := ⟨[], []⟩

/-- What stands at a place. -/
def entry? (files : FileSystem) (place : Location) : Option Entry :=
  if place.isEmpty then some .directory else files.entries.lookup place

/-- Put an entry at a place. -/
def put (files : FileSystem) (place : Location) (entry : Entry) : FileSystem :=
  { files with entries := (place, entry) :: files.entries.filter (·.1 != place) }

/-- Take the entry at a place away. -/
def remove (files : FileSystem) (place : Location) : FileSystem :=
  { files with entries := files.entries.filter (·.1 != place) }

/-- The place one name further on. -/
def step (place : Location) (name : String) : Except FileFault Location :=
  if name = "." then .ok place
  else if name = ".." then .ok place.dropLast
  else if Path.nameLimit < name.utf8ByteSize then .error .nameTooLong
  else .ok (place ++ [name])

/-- The place, if a directory stands there. -/
def directoryAt (files : FileSystem) (place : Location) : Except FileFault Location :=
  match files.entry? place with
  | none => .error .notFound
  | some (.file _) => .error .notDirectory
  | some .directory => .ok place

/-- Walk along names from a place.  At every place on the way a directory has to stand, also at
the last one. -/
def walk (files : FileSystem) : Location → List String → Except FileFault Location
  | place, [] => files.directoryAt place
  | place, name :: names => do walk files (← step (← files.directoryAt place) name) names

/-- Why a path leads nowhere, whatever stands in the file system. -/
def pathFault? (path : String) : Option FileFault :=
  if path.toList.contains '\x00' then some .zeroByte
  else if path.isEmpty then some .notFound
  else if Path.sizeLimit < path.utf8ByteSize then some .nameTooLong
  else none

/-- The directory to which all names of a path but the last lead. -/
def enter (files : FileSystem) (path : String) : Except FileFault Location :=
  match pathFault? path with
  | some fault => .error fault
  | none =>
    files.walk (if Path.isRooted path then [] else files.current) (Path.steps path).dropLast

/-- The place that a path leads to, at which nothing has to stand.  A file has no slash behind its
name. -/
def locate (files : FileSystem) (path : String) : Except FileFault Location := do
  let directory ← files.enter path
  let place ← match (Path.steps path).getLast? with
    | some name => step directory name
    | none => .ok directory
  match Path.endsInSlash path, files.entry? place with
  | true, some (.file _) => .error .notDirectory
  | _, _ => .ok place

/-- Something stands where the path leads. -/
def exists? (files : FileSystem) (path : String) : Bool :=
  match files.locate path with
  | .ok place => (files.entry? place).isSome
  | .error _ => false

/-- A directory stands where the path leads. -/
def isDirectory (files : FileSystem) (path : String) : Bool :=
  match files.locate path with
  | .ok place => match files.entry? place with
    | some .directory => true
    | _ => false
  | .error _ => false

/-- The content of a file. -/
def read (files : FileSystem) (path : String) : Except FileFault ByteArray := do
  let place ← files.locate path
  match files.entry? place with
  | some (.file content) => .ok content
  | some .directory => .error .isDirectory
  | none => .error .notFound

/-- The content of a file as a text. -/
def readText (files : FileSystem) (path : String) : Except FileFault String := do
  match String.fromUTF8? (← files.read path) with
  | some text => .ok text
  | none => .error .notText

/-- Write a file, which is made if it is not there.  The path of a file has a name at its end and no
slash behind it. -/
def write (files : FileSystem) (path : String) (content : ByteArray) :
    Except FileFault FileSystem := do
  let directory ← files.enter path
  match Path.entryName? path, Path.endsInSlash path with
  | some name, false =>
    let place ← step directory name
    match files.entry? place with
    | some .directory => .error .isDirectory
    | _ => .ok (files.put place (.file content))
  | _, _ => .error .isDirectory

/-- Make one directory. -/
def makeDirectory (files : FileSystem) (path : String) : Except FileFault FileSystem := do
  let place ← files.locate path
  match files.entry? place with
  | some _ => .error .exists
  | none => .ok (files.put place .directory)

/-- Make a directory that may be there already. -/
def ensureDirectory (files : FileSystem) (path : String) : Except FileFault FileSystem :=
  match files.makeDirectory path with
  | .error fault => if files.isDirectory path then .ok files else .error fault
  | made => made

/-- Make the directory of the reversed names, and those that lead to it. -/
def makeAll (files : FileSystem) (rooted : Bool) : List String → Except FileFault FileSystem
  | [] => .ok files
  | name :: outer =>
    let path := Path.ofParts rooted (name :: outer).reverse
    match files.ensureDirectory path with
    | .error .notFound => do (← makeAll files rooted outer).ensureDirectory path
    | result => result

/-- Make a directory and those that lead to it. -/
def makeDirectories (files : FileSystem) (path : String) : Except FileFault FileSystem :=
  files.makeAll (Path.isRooted path) (Path.parts path).reverse

/-- The directories of the reversed names as far as they can be made.  The outer ones stay when one
further in is refused. -/
def makeSome (files : FileSystem) (rooted : Bool) : List String → FileSystem
  | [] => files
  | name :: outer =>
    let path := Path.ofParts rooted (name :: outer).reverse
    match files.makeAll rooted (name :: outer), files.ensureDirectory path with
    | .ok made, _ => made
    | .error _, .error .notFound => makeSome files rooted outer
    | .error _, _ => files

/-- Give a file another path, in the place of the file that may be there.  The new path has a name
at its end and no slash behind it. -/
def rename (files : FileSystem) (source target : String) : Except FileFault FileSystem := do
  let content ← files.read source
  let old ← files.locate source
  let directory ← files.enter target
  match Path.entryName? target with
  | none => .error .busy
  | some name =>
    let new ← step directory name
    match Path.endsInSlash target, files.entry? new with
    | true, _ => .error .notDirectory
    | false, some .directory => .error .isDirectory
    | false, _ => .ok ((files.remove old).put new (.file content))

/-- Take a file away. -/
def removeFile (files : FileSystem) (path : String) : Except FileFault FileSystem := do
  let _ ← files.read path
  let place ← files.locate path
  .ok (files.remove place)

/-- What is left by a change that is refused. -/
def leftBy (files : FileSystem) : FileAction → FileSystem
  | .makeDirectories path => files.makeSome (Path.isRooted path) (Path.parts path).reverse
  | .write _ _ | .rename _ _ => files

/-- Make a change. -/
def perform (files : FileSystem) : FileAction → Except FileFault FileSystem
  | .makeDirectories path => files.makeDirectories path
  | .write path content => files.write path content
  | .rename source target => files.rename source target

end FileSystem

end SkillEngine
