import SkillEngine.Codec.Record

/-!
# Tagged records

A value of one of several kinds is written as one object: the tag first, then the fields of the
record of its kind.  The tag is read before anything else.
-/

namespace SkillEngine

/-- A kind of value: its tag, and how the fields beside the tag are read. -/
structure Variant (α : Type) where
  tag : String
  decode : Decoder α

/-- The kind whose values are a record. -/
def Record.variant {ρ α : Type} (record : Record ρ ρ) (tag : String) (wrap : ρ → α) :
    Variant α where
  tag := tag
  decode passage document := (record.decode passage document).map wrap

namespace Codec

variable {α : Type}

/-- The field that holds the tag. -/
def tagField : String := "type"

/-- The kind that a tag names.  A collected tag may also be the position of its kind. -/
def variantOf (variants : List (Variant α)) (passage : Passage) (tag : Json) :
    Except DecodeError (Variant α) :=
  match tag, passage with
  | .string given, _ => chosen variants (·.tag) given
  | .number (.integer position), .collected =>
    match (if 0 ≤ position then variants[position.toNat]? else none) with
    | some variant => .ok variant
    | none => .error .malformed
  | _, _ => .error .malformed

/-- Read a tagged record from an object, or from an array that starts with the tag. -/
def decodeTagged (variants : List (Variant α)) : Decoder α := fun passage document =>
  match document with
  | .object fields =>
    match fields.filter (·.1 == tagField) with
    | [] => .error (.missingField tagField)
    | [(_, tag)] => do
      let variant ← variantOf variants passage tag
      variant.decode .collected (.object (fields.filter (·.1 != tagField)))
    | _ => .error .malformed
  | .array [] => .error (.missingField tagField)
  | .array (tag :: items) => do
    let variant ← variantOf variants passage tag
    variant.decode .collected (.array items)
  | _ => .error .malformed

/-- The codec of tagged records; `write` gives the tag and the fields of a value. -/
def tagged (variants : List (Variant α)) (write : α → String × List (String × Json)) :
    Codec α where
  encode value := .object ((tagField, .string (write value).1) :: (write value).2)
  decode := decodeTagged variants

end Codec

end SkillEngine
