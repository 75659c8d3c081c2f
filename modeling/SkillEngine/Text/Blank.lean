import SkillEngine.Text.Pieces

/-!
# White space

The characters of the Unicode property `White_Space`, trimming, and the words of a text.
-/

namespace SkillEngine.Text

/-- The property `White_Space`, as inclusive ranges of code points. -/
def blankRanges : List (Nat × Nat) :=
  [(0x09, 0x0D), (0x20, 0x20), (0x85, 0x85), (0xA0, 0xA0), (0x1680, 0x1680), (0x2000, 0x200A),
    (0x2028, 0x2029), (0x202F, 0x202F), (0x205F, 0x205F), (0x3000, 0x3000)]

/-- The character is white space. -/
def isBlank (c : Char) : Bool :=
  blankRanges.any fun range => range.1 ≤ c.toNat && c.toNat ≤ range.2

/-- The text holds nothing but white space, so nothing is left of it when it is trimmed. -/
def allBlank (text : List Char) : Bool := text.all isBlank

/-- The text of a string holds nothing but white space. -/
def isBlankString (text : String) : Bool := allBlank text.toList

/-- The words of a text: its longest pieces without white space. -/
def words (text : List Char) : List (List Char) := (cut isBlank text).filter (!·.isEmpty)

end SkillEngine.Text
