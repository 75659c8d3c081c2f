import SkillEngine.Dict
import SkillEngine.Number.Literal

/-!
# JSON documents

A document is a tree of values.  The fields of an object stand in a list, in the order in which
they are read or written.  The *canonical form* of a document is what is left when that order is
forgotten: the fields are sorted by name, of two fields with one name the later one stays, single
precision widens to double, and a number that is not finite becomes null.
-/

namespace SkillEngine

/-- A JSON document. -/
inductive Json where
  | null
  | bool (value : Bool)
  | number (value : Number)
  | string (value : String)
  | array (items : List Json)
  | object (fields : List (String × Json))
  deriving Inhabited

namespace Json

/-- The fields of an object. -/
abbrev Object := Dict Json

/-- A whole number. -/
def int (value : Int) : Json := .number (.integer value)

/-- A natural number. -/
def nat (value : Nat) : Json := .number (.integer value)

/-- The value is null. -/
def isNull : Json → Bool
  | null => true
  | _ => false

/-- The text of a string. -/
def string? : Json → Option String
  | string value => some value
  | _ => none

/-- The items of an array. -/
def array? : Json → Option (List Json)
  | array items => some items
  | _ => none

/-- The fields of an object. -/
def object? : Json → Option Object
  | object fields => some fields
  | _ => none

/-- The value of a field; a value that is no object has none. -/
def field? (document : Json) (name : String) : Option Json :=
  document.object?.bind (·.find? name)

/-- The value of a field, null where there is none. -/
def field (document : Json) (name : String) : Json := (document.field? name).getD null

/-- The canonical form of a number. -/
def ofNumber : Number → Json
  | .integer value => number (.integer value)
  | .single value => if value.isFinite then number (.double value.convert) else null
  | .double value => if value.isFinite then number (.double value) else null

mutual

/-- The canonical form of a document. -/
def canonical : Json → Json
  | null => null
  | bool value => bool value
  | number value => ofNumber value
  | string value => string value
  | array items => array (canonicalItems items)
  | object fields => object (Dict.ofList (canonicalFields fields))

/-- The canonical forms of the items of an array. -/
def canonicalItems : List Json → List Json
  | [] => []
  | item :: items => canonical item :: canonicalItems items

/-- The canonical forms of the fields of an object, still in their order. -/
def canonicalFields : List (String × Json) → List (String × Json)
  | [] => []
  | (name, value) :: fields => (name, canonical value) :: canonicalFields fields

end

end Json

end SkillEngine
