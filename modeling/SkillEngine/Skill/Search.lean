import SkillEngine.Skill.Basic
import SkillEngine.Text.Case
import SkillEngine.Text.Pieces

/-!
# Searching

A search finds a text inside another one without regard to case, by the full lower case of both.
-/

namespace SkillEngine

/-- The query stands somewhere in the text, up to case. -/
def Text.mentions (text query : String) : Bool :=
  Text.occursIn (Text.lower query.toList) (Text.lower text.toList)

/-- A skill is found by its name, its description and its tags. -/
def Skill.matchesQuery (skill : Skill) (query : String) : Bool :=
  Text.mentions skill.name query || Text.mentions skill.description query ||
    skill.tags.any (Text.mentions · query)

/-- The category of a name, up to the case of ASCII letters. -/
def Category.ofName? (name : String) : Option Category :=
  Category.all.find? (Text.equalIgnoringAsciiCase ·.name name)

/-- What is said of a name that is no category's. -/
def Category.unknown (name : String) : String := "unknown skill category: " ++ name

end SkillEngine
