import SkillEngine.Codec.Basic

/-!
# Records

The fields of a record are described once, in the order of declaration; the description writes
them and reads them.  A record is written as an object.  It is read from an object, whose unknown
fields are passed over, or from an array that holds the fields in their order.  Of several faults
the first bad field counts; only then a field that is missing.
-/

namespace SkillEngine

/-- The name of a field, the check that its content can be read, and what is wanted of it. -/
structure FieldCheck where
  name : String
  check : Decoder Unit
  shape : Json.Shape

/-- Fields of a record `ρ` that together read as an `α`. -/
structure Record (ρ α : Type) where
  checks : List FieldCheck
  write : ρ → List (String × Json)
  build : Passage → (String → Option Json) → Except DecodeError α

namespace Record

variable {ρ α β : Type}

instance : Functor (Record ρ) where
  map f record :=
    { record with build := fun passage find => (record.build passage find).map f }

instance : Seq (Record ρ) where
  seq function argument :=
    let argument := argument ()
    { checks := function.checks ++ argument.checks
      write := fun value => function.write value ++ argument.write value
      build := fun passage find => do
        let f ← function.build passage find
        let a ← argument.build passage find
        .ok (f a) }

/-- One field: its name, the codec of its content, what it is when it is absent, and which
contents are left out in writing. -/
def field (name : String) (codec : Codec β) (absent : Except DecodeError β)
    (hidden : β → Bool) (get : ρ → β) : Record ρ β where
  checks :=
    [⟨name, fun passage document => (codec.decode passage document).map fun _ => (), codec.shape⟩]
  write value := if hidden (get value) then [] else [(name, codec.encode (get value))]
  build passage find := match find name with
    | some document => codec.decode passage document
    | none => absent

/-- A field that has to be there. -/
def required (name : String) (codec : Codec β) (get : ρ → β) : Record ρ β :=
  field name codec (.error (.missingField name)) (fun _ => false) get

/-- A field with a default for when it is absent. -/
def withDefault (name : String) (codec : Codec β) (default : β) (get : ρ → β) : Record ρ β :=
  field name codec (.ok default) (fun _ => false) get

/-- A field that is left out when it has no content. -/
def optional (name : String) (codec : Codec β) (get : ρ → Option β) : Record ρ (Option β) :=
  field name codec.option (.ok none) Option.isNone get

/-- A field that is written as null when it has no content. -/
def nullable (name : String) (codec : Codec β) (get : ρ → Option β) : Record ρ (Option β) :=
  field name codec.option (.ok none) (fun _ => false) get

/-- A list that is left out when it is empty. -/
def unlessEmpty (name : String) (codec : Codec β) (get : ρ → List β) : Record ρ (List β) :=
  field name codec.list (.ok []) List.isEmpty get

/-- The names of the fields in order. -/
def names (record : Record ρ α) : List String := record.checks.map (·.name)

/-- No known field occurs twice. -/
def distinct (record : Record ρ α) (fields : List (String × Json)) : Bool :=
  record.names.all fun name => (fields.filter (·.1 == name)).length ≤ 1

/-- The first fault among the contents of known fields, in the order in which they stand. -/
def firstFault (record : Record ρ α) (passage : Passage) (fields : List (String × Json)) :
    Option DecodeError :=
  fields.findSome? fun entry =>
    match record.checks.find? (·.name == entry.1) with
    | none => none
    | some known =>
      match known.check passage entry.2 with
      | .ok _ => none
      | .error fault => some fault

/-- Read the record from the fields of an object. -/
def ofFields (record : Record ρ α) (passage : Passage) (fields : List (String × Json)) :
    Except DecodeError α :=
  match record.build passage (Dict.find? fields) with
  | .ok value => if record.distinct fields then .ok value else .error .malformed
  | .error fault => .error ((record.firstFault passage fields).getD fault)

/-- Read the record from the items of an array.  Fields without a default cannot be left off at
its end; items beyond the last field are passed over in configuration files only. -/
def ofItems (record : Record ρ α) (passage : Passage) (items : List Json) :
    Except DecodeError α :=
  let fields := record.names.zip items
  match record.build passage (Dict.find? fields) with
  | .ok value =>
    if items.length ≤ record.names.length ∨ passage = .configured then .ok value
    else .error .malformed
  | .error _ => .error ((record.firstFault passage fields).getD .malformed)

/-- Read the record from an object or from an array. -/
def decode (record : Record ρ α) : Decoder α := fun passage document =>
  match document with
  | .object fields => record.ofFields passage fields
  | .array items => record.ofItems passage items
  | _ => .error .malformed

/-- The codec of a record. -/
def codec (record : Record α α) : Codec α where
  encode value := .object (record.write value)
  decode := record.decode
  shape := .record (record.checks.map fun known => (known.name, known.shape))

end Record

end SkillEngine
