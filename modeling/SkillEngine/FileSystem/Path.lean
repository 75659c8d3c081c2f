import SkillEngine.Text.Pieces

/-!
# Paths

A path is a text.  Its parts are the names between slashes, without empty ones and single points;
a rooted path starts with a slash.
-/

namespace SkillEngine.Path

/-- The path starts at the root. -/
def isRooted (path : String) : Bool := path.toList.head? == some '/'

/-- The texts between slashes. -/
def pieces (path : String) : List String :=
  (Text.cut (· == '/') path.toList).map String.ofList

/-- The name says nothing: it is empty or a single point. -/
def isIdle (name : String) : Bool := name == "" || name == "."

/-- The names of a path, outermost first. -/
def parts (path : String) : List String := (pieces path).filter (!isIdle ·)

/-- The names on the way that a path describes, with the points in it. -/
def steps (path : String) : List String := (pieces path).filter (· != "")

/-- The name of the entry that a path leads to in its directory.  A path that ends in points, and
the root, lead to a directory without a name. -/
def entryName? (path : String) : Option String :=
  (steps path).getLast?.filter fun name => name != "." && name != ".."

/-- The path ends in a slash, so it is that of a directory. -/
def endsInSlash (path : String) : Bool := path.toList.getLast? == some '/'

/-- The greatest number of bytes of a path. -/
def sizeLimit : Nat := 4095

/-- The greatest number of bytes of a name. -/
def nameLimit : Nat := 255

/-- The last name, if the path ends in one that is no step back. -/
def fileName? (path : String) : Option String := (parts path).getLast?.filter (· != "..")

/-- The path of names below the root or below the place where paths start. -/
def ofParts (rooted : Bool) (parts : List String) : String :=
  (if rooted then "/" else "") ++ Text.joinStrings "/" parts

/-- The path without its last name; the shortest paths have none. -/
def parent? (path : String) : Option String :=
  if (parts path).isEmpty then none else some (ofParts (isRooted path) (parts path).dropLast)

/-- The path with another name in the place of its last one, or behind it if it has none. -/
def withFileName (path name : String) : String :=
  ofParts (isRooted path)
    ((if (fileName? path).isSome then (parts path).dropLast else parts path) ++ [name])

/-- A path that is read as starting at a directory. -/
def below (directory path : String) : String :=
  if isRooted path then path
  else if directory.isEmpty then path
  else if endsInSlash directory then directory ++ path
  else directory ++ "/" ++ path

end SkillEngine.Path
