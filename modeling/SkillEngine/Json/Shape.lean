/-!
# Shapes

A reader that knows what it will do with a document needs not all of it.  A shape says which parts
are wanted.  What is not wanted has to be spelled as a document and may otherwise be anything.
-/

namespace SkillEngine.Json

/-- What is wanted of a document: all of it, the same of each item of a list, or some fields of a
record, which are listed in order. -/
inductive Shape where
  | whole
  | list (item : Shape)
  | record (fields : List (String × Shape))

namespace Shape

/-- What is wanted of the item at a position of an array.  The items of a record that is written as
an array are its fields in order. -/
def item : Shape → Nat → Shape
  | whole, _ => whole
  | list shape, _ => shape
  | record fields, position => (fields[position]?.map (·.2)).getD whole

/-- What is wanted of the field of an object, if anything is. -/
def field? : Shape → String → Option Shape
  | whole, _ | list _, _ => some whole
  | record fields, name => fields.lookup name

end Shape

end SkillEngine.Json
