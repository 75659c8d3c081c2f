/-!
# Dictionaries

A dictionary is a list of named entries.  The operations keep the names strictly increasing in
the order of code points, which is also the order of the UTF-8 bytes; `Dict.Sorted` states it.
Reading never needs the order, so it works on every list of entries and takes the first.
-/

namespace SkillEngine

/-- Named entries, in the order in which they are listed. -/
abbrev Dict (α : Type) := List (String × α)

namespace Dict

variable {α β : Type}

/-- The entry of a name. -/
def find? (dict : Dict α) (name : String) : Option α := dict.lookup name

/-- The name has an entry. -/
def has (dict : Dict α) (name : String) : Bool := (dict.find? name).isSome

/-- The names in order. -/
def names (dict : Dict α) : List String := dict.map (·.1)

/-- The entries without their names. -/
def values (dict : Dict α) : List α := dict.map (·.2)

/-- Names increase strictly. -/
def Sorted (dict : Dict α) : Prop := dict.names.Pairwise (· < ·)

/-- Give a name its entry, in place of the one that it had. -/
def insert (dict : Dict α) (name : String) (value : α) : Dict α :=
  match dict with
  | [] => [(name, value)]
  | (other, held) :: rest =>
    if name < other then (name, value) :: (other, held) :: rest
    else if name = other then (name, value) :: rest
    else (other, held) :: insert rest name value

/-- Change the entry of a name in its place. -/
def modify (dict : Dict α) (name : String) (change : α → α) : Dict α :=
  dict.map fun entry => if entry.1 = name then (entry.1, change entry.2) else entry

/-- Take a name's entry away. -/
def erase (dict : Dict α) (name : String) : Dict α := dict.filter (·.1 != name)

/-- Insert the entries of a list one after another, so a later one replaces an earlier one. -/
def insertAll (dict : Dict α) (entries : List (String × α)) : Dict α :=
  entries.foldl (fun grown entry => grown.insert entry.1 entry.2) dict

/-- The dictionary of a list of entries; of two with one name the later one stays. -/
def ofList (entries : List (String × α)) : Dict α := insertAll [] entries

/-- Change every entry and keep its name. -/
def mapValues (f : α → β) (dict : Dict α) : Dict β := dict.map fun entry => (entry.1, f entry.2)

end Dict

end SkillEngine
