import SkillEngine.FileSystem.Basic

/-!
# Snapshots

A program works on the part of a disk through which its paths lead.  A snapshot is a file system
with the entries at these places; what is left to do on the disk when the program is through is
the difference between two snapshots.
-/

namespace SkillEngine

/-- What is done at a place of a disk. -/
inductive Change where
  | remove
  | makeDirectory
  | write (content : ByteArray)

namespace FileSystem

/-- The places on the way to a place, outermost first, and the place itself. -/
def placesTo (place : Location) : List Location :=
  (List.range place.length).map fun count => place.take (count + 1)

/-- The place behind one more name that is no single point. -/
def beyond (place : Location) (name : String) : Location :=
  if name = ".." then place.dropLast else place ++ [name]

/-- The places through which a path leads, and those on the way to them. -/
def placesOf (files : FileSystem) (path : String) : List Location :=
  let start := if Path.isRooted path then [] else files.current
  let names := Path.parts path
  (List.range (names.length + 1)).flatMap fun count =>
    placesTo ((names.take count).foldl beyond start)

/-- What is done at a place to come from one file system to another. -/
def changeAt? (before after : FileSystem) (place : Location) : Option Change :=
  match before.entry? place, after.entry? place with
  | some _, none => some .remove
  | none, some .directory => some .makeDirectory
  | none, some (.file content) => some (.write content)
  | some (.file old), some (.file new) => if old == new then none else some (.write new)
  | _, _ => none

/-- What is done to come from one file system to another, with the oldest new entries first. -/
def changes (before after : FileSystem) : List (Location × Change) :=
  let places := before.entries.map (·.1) ++ (after.entries.map (·.1)).reverse
  places.eraseDups.filterMap fun place => (changeAt? before after place).map (place, ·)

end FileSystem

end SkillEngine
