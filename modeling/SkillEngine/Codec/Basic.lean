import SkillEngine.Json.Basic
import SkillEngine.Json.Shape

/-!
# Codecs

A codec says how a value is written as a document, how it is read from one, and which parts of a
document are wanted for that.  Codecs of lists, options, choices and whole numbers are built here;
those of records and tagged records in the modules beside this one.

What stands inside a tagged record is collected before the tag is known.  Collected documents are
read a little more freely, and so are those of configuration files; every reader is told by a
`Passage` which way its document came.
-/

namespace SkillEngine

/-- Why a document cannot be read as a value. -/
inductive DecodeError where
  | missingField (name : String)
  | unknownVariant (given : String) (expected : List String)
  | malformed
  deriving DecidableEq

/-- The way on which a document reaches its reader: directly, behind a tag, or from a
configuration file. -/
inductive Passage where
  | direct
  | collected
  | configured
  deriving DecidableEq

/-- A way to read a value from a document. -/
abbrev Decoder (α : Type) := Passage → Json → Except DecodeError α

/-- How values are written as documents and read back. -/
structure Codec (α : Type) where
  encode : α → Json
  decode : Decoder α
  /-- What is wanted of the document of a value when it is read from a text. -/
  shape : Json.Shape := .whole

namespace Codec

variable {α : Type}

/-- Strings. -/
def text : Codec String where
  encode := .string
  decode _ document := match document with
    | .string value => .ok value
    | _ => .error .malformed

/-- Truth values. -/
def bool : Codec Bool where
  encode := .bool
  decode _ document := match document with
    | .bool value => .ok value
    | _ => .error .malformed

/-- The whole number that a document is, if it lies below a limit and is not negative. -/
def natBelow (limit : Nat) : Json → Except DecodeError Nat
  | .number (.integer value) =>
    if 0 ≤ value ∧ value < limit then .ok value.toNat else .error .malformed
  | _ => .error .malformed

/-- Whole numbers of 32 bits. -/
def word32 : Codec UInt32 where
  encode value := .nat value.toNat
  decode _ document := (natBelow UInt32.size document).map UInt32.ofNat

/-- Whole numbers of 64 bits. -/
def word64 : Codec UInt64 where
  encode value := .nat value.toNat
  decode _ document := (natBelow UInt64.size document).map UInt64.ofNat

/-- Counts.  The whole numbers of documents fit 64 bits, so a count that is read does. -/
def count : Codec Nat where
  encode := .nat
  decode _ document := match document with
    | .number (.integer value) => if 0 ≤ value then .ok value.toNat else .error .malformed
    | _ => .error .malformed

/-- The whole number fits 64 bits, with or without a sign. -/
def fitsWord (value : Int) : Bool := -(twoTo 63) ≤ value && value < twoTo 64

/-- The number of a binary format nearest to a number; whole numbers have to fit 64 bits. -/
def nearest {format : FloatFormat} : Number → Except DecodeError (Floating format)
  | .integer value => if fitsWord value then .ok (.ofInt value) else .error .malformed
  | .single value => .ok value.convert
  | .double value => .ok value.convert

/-- Numbers of single precision. -/
def single : Codec Single where
  encode value := .number (.single value)
  decode _ document := match document with
    | .number value => nearest value
    | _ => .error .malformed

/-- Numbers of double precision. -/
def double : Codec Double where
  encode value := .number (.double value)
  decode _ document := match document with
    | .number value => nearest value
    | _ => .error .malformed

/-- Documents of any form. -/
def any : Codec Json where
  encode := id
  decode _ document := .ok document.canonical

/-- Objects with free fields. -/
def object : Codec Json.Object where
  encode := .object
  decode _ document := match document with
    | .object fields => .ok (Dict.ofList (Json.canonicalFields fields))
    | _ => .error .malformed

/-- Values that may be missing, which null says. -/
def option (codec : Codec α) : Codec (Option α) where
  encode value := match value with
    | some value => codec.encode value
    | none => .null
  decode passage document :=
    if document.isNull then .ok none else (codec.decode passage document).map some
  shape := codec.shape

/-- Lists, as arrays. -/
def list (codec : Codec α) : Codec (List α) where
  encode values := .array (values.map codec.encode)
  decode passage document := match document with
    | .array items => items.mapM (codec.decode passage)
    | _ => .error .malformed
  shape := .list codec.shape

/-- A document says no more than that it is there. -/
def isUnit (passage : Passage) : Json → Bool
  | .null => true
  | .object fields => fields.isEmpty && passage == .collected
  | _ => false

/-- The value of a name among named values. -/
def chosen (values : List α) (name : α → String) (given : String) : Except DecodeError α :=
  match values.find? (name · == given) with
  | some value => .ok value
  | none => .error (.unknownVariant given (values.map name))

/-- A choice among named values: the name, or an object whose one field has the name. -/
def choice (values : List α) (name : α → String) : Codec α where
  encode value := .string (name value)
  decode passage document := match document with
    | .string given => chosen values name given
    | .object [(given, content)] => do
      let value ← chosen values name given
      if isUnit passage content then .ok value else .error .malformed
    | _ => .error .malformed

end Codec

/-- The document that a value is written as, in canonical form. -/
def Codec.document {α : Type} (codec : Codec α) (value : α) : Json :=
  (codec.encode value).canonical

/-- The value that a document is read as. -/
def Codec.read {α : Type} (codec : Codec α) (document : Json) : Except DecodeError α :=
  codec.decode .direct document

end SkillEngine
