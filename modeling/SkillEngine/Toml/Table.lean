import SkillEngine.Json.Basic

/-!
# Tables under construction

The tables of a configuration file grow line by line.  How a table came about decides what may
still be added to it: no line may define a thing that another line has defined.
-/

namespace SkillEngine.Toml

/-- How a table came about: on the way to the table of a header, on the way to a dotted key, or by
a header of its own. -/
inductive Origin where
  | implied
  | dotted
  | header
  deriving DecidableEq

/-- What stands under a name: a finished value, a table, or the tables of repeated headers. -/
inductive Node where
  | value (value : Json)
  | table (origin : Origin) (fields : List (String × Node))
  | tables (items : List (List (String × Node)))

/-- The fields of a table. -/
abbrev Fields := Dict Node

namespace Fields

/-- Put a node under a name, in its place or at the end. -/
def put (fields : Fields) (name : String) (node : Node) : Fields :=
  if fields.has name then fields.map fun entry => if entry.1 = name then (name, node) else entry
  else fields ++ [(name, node)]

/-- Change the table at the end of a path of header names, and make the tables that lead to it. -/
def within (change : Fields → Option Fields) : List String → Fields → Option Fields
  | [], fields => change fields
  | name :: path, fields => do
    match fields.find? name with
    | none => some (fields.put name (.table .implied (← within change path [])))
    | some (.table origin inner) =>
      some (fields.put name (.table origin (← within change path inner)))
    | some (.tables items) =>
      let last ← items.getLast?
      some (fields.put name (.tables (items.dropLast ++ [← within change path last])))
    | some (.value _) => none

/-- Give a name a node that it does not have yet. -/
def define (name : String) (node : Node) (fields : Fields) : Option Fields :=
  if fields.has name then none else some (fields.put name node)

/-- Give a dotted key a value.  The tables that lead to it have no headers of their own; a repeated
header stands for the last of its tables, whose own fields a dotted key does not give. -/
def assign (name : String) (value : Json) : List String → Fields → Option Fields
  | [], fields => fields.define name (.value value)
  | outer :: path, fields => do
    match fields.find? outer with
    | none => some (fields.put outer (.table .dotted (← assign name value path [])))
    | some (.table origin inner) =>
      if origin = .header then none
      else some (fields.put outer (.table origin (← assign name value path inner)))
    | some (.tables items) =>
      if path.isEmpty then none
      else
        let last ← items.getLast?
        some (fields.put outer (.tables (items.dropLast ++ [← assign name value path last])))
    | some (.value _) => none

/-- The lines below a header: each changes the fields of its table. -/
abbrev Section := Fields → Option Fields

/-- Define the table of a header.  It may have been made on the way to another header before. -/
def defineTable (name : String) (lines : Section) (fields : Fields) : Option Fields := do
  match fields.find? name with
  | none => some (fields.put name (.table .header (← lines [])))
  | some (.table .implied inner) => some (fields.put name (.table .header (← lines inner)))
  | _ => none

/-- Add a table to those of a repeated header. -/
def appendTable (name : String) (lines : Section) (fields : Fields) : Option Fields := do
  match fields.find? name with
  | none => some (fields.put name (.tables [← lines []]))
  | some (.tables items) => some (fields.put name (.tables (items ++ [← lines []])))
  | _ => none

end Fields

mutual

/-- The document of a node. -/
def Node.document : Node → Json
  | .value value => value
  | .table _ fields => .object (fieldDocuments fields)
  | .tables items => .array (itemDocuments items)

/-- The documents of fields. -/
def fieldDocuments : List (String × Node) → List (String × Json)
  | [] => []
  | (name, node) :: fields => (name, node.document) :: fieldDocuments fields

/-- The documents of the tables of a repeated header. -/
def itemDocuments : List (List (String × Node)) → List Json
  | [] => []
  | fields :: items => .object (fieldDocuments fields) :: itemDocuments items

end

end SkillEngine.Toml
