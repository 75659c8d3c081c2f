import SkillEngine.Number.Power
import SkillEngine.Text.Pieces

/-!
# Semantic versions

A version is three numbers of 64 bits with points between them, then an optional pre-release
behind a hyphen and optional build metadata behind a plus.  Both of these are identifiers with
points between them.  No number of the version or its pre-release has a leading zero.
-/

namespace SkillEngine

/-- A semantic version. -/
structure Version where
  major : Nat
  minor : Nat
  patch : Nat
  preRelease : List Char
  build : List Char
  deriving DecidableEq

namespace Version

/-- The numbers of a version lie below this limit. -/
def limit : Nat := twoTo 64

/-- A number is written without leading zeros. -/
def isPlainNumber (text : List Char) : Bool :=
  !text.isEmpty && text.all Char.isDigit && (text.head? != some '0' || text.length == 1)

/-- A number of a version. -/
def number? (text : List Char) : Option Nat :=
  let value := Nat.ofDigitChars 10 text 0
  if isPlainNumber text && value < limit then some value else none

/-- The characters of identifiers. -/
def isIdentifierChar (c : Char) : Bool := c.isAlphanum || c == '-'

/-- An identifier has at least one character. -/
def isIdentifier (text : List Char) : Bool := !text.isEmpty && text.all isIdentifierChar

/-- An identifier of a pre-release; one of digits only is a plain number. -/
def isPreIdentifier (text : List Char) : Bool :=
  isIdentifier text && (!text.all Char.isDigit || isPlainNumber text)

/-- The text before the first mark, and the text behind it if there is a mark. -/
def splitAtMark (mark : Char) (text : List Char) : List Char × Option (List Char) :=
  match text.dropWhile (· != mark) with
  | [] => (text, none)
  | _ :: rest => (text.takeWhile (· != mark), some rest)

/-- An optional part whose identifiers pass a check. -/
def part? (check : List Char → Bool) : Option (List Char) → Option (List Char)
  | none => some []
  | some text => if (Text.cut (· == '.') text).all check then some text else none

/-- The version that a text spells. -/
def ofChars? (text : List Char) : Option Version :=
  let (front, build) := splitAtMark '+' text
  let (core, preRelease) := splitAtMark '-' front
  match Text.cut (· == '.') core with
  | [major, minor, patch] => do
    some ⟨← number? major, ← number? minor, ← number? patch,
      ← part? isPreIdentifier preRelease, ← part? isIdentifier build⟩
  | _ => none

/-- A part behind its mark, or nothing. -/
def marked (mark : Char) : List Char → List Char
  | [] => []
  | text => mark :: text

/-- The text of a version. -/
def chars (version : Version) : List Char :=
  Text.join ['.'] ([version.major, version.minor, version.patch].map (Nat.toDigits 10)) ++
    marked '-' version.preRelease ++ marked '+' version.build

end Version

end SkillEngine
