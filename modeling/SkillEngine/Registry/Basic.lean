import SkillEngine.Registry.Store
import SkillEngine.Skill.Library
import SkillEngine.Skill.Search
import SkillEngine.Skill.Validation

/-!
# The registry

The registered skills, by id.  A registry may have a store; then every change is written to it.
When that fails the operation fails, and the registry keeps the change all the same.
-/

namespace SkillEngine

/-- The registered skills and the store in which they are kept. -/
structure Registry where
  skills : Dict Skill
  store : Option Store

/-- What an operation of a registry leads to: a value or a failure, the registry, and the files. -/
structure Managed (α : Type) where
  outcome : Except Failure α
  registry : Registry
  files : FileSystem

namespace Registry

/-- A registry without skills, which is not stored. -/
def empty : Registry := ⟨[], none⟩

/-- The skills under their ids; of two with one id the later one stays. -/
def byId (skills : List Skill) : Dict Skill :=
  Dict.ofList (skills.map fun skill => (skill.id, skill))

/-- The registry that a store holds.  Skills that are not valid stay in it, but do not run. -/
def openStore (store : Store) (files : FileSystem) : Except Failure Registry :=
  (store.load files).map fun skills => ⟨byId skills, some store⟩

/-- Refuse an operation. -/
def refuse {α : Type} (registry : Registry) (files : FileSystem) (failure : Failure) :
    Managed α :=
  ⟨.error failure, registry, files⟩

/-- Write the skills to the store, if there is one, and return a value when that succeeds. -/
def persist {α : Type} (registry : Registry) (files : FileSystem) (value : α) : Managed α :=
  match registry.store with
  | none => ⟨.ok value, registry, files⟩
  | some store =>
    let (outcome, files) := store.save registry.skills.values files
    ⟨outcome.map fun _ => value, registry, files⟩

/-- Why a skill cannot be registered. -/
def refusal? (registry : Registry) (skill : Skill) : Option Failure :=
  if !skill.violations.isEmpty then some (.invalid skill.validate)
  else if registry.skills.has skill.id then some (.alreadyExists skill.id)
  else none

/-- Register a skill. -/
def register (registry : Registry) (files : FileSystem) (skill : Skill) : Managed Unit :=
  match registry.refusal? skill with
  | some failure => registry.refuse files failure
  | none => persist { registry with skills := registry.skills.insert skill.id skill } files ()

/-- The failure to remove an enabled skill. -/
def stillEnabled (id : String) : Failure :=
  .conflict ("skill " ++ id ++ " is enabled, disable it first")

/-- Remove a disabled skill, and return it. -/
def unregister (registry : Registry) (files : FileSystem) (id : String) : Managed Skill :=
  match registry.skills.find? id with
  | none => registry.refuse files (.notFound id)
  | some skill =>
    if skill.enabled then registry.refuse files (stillEnabled id)
    else persist { registry with skills := registry.skills.erase id } files skill

/-- Enable or disable a skill. -/
def setEnabled (registry : Registry) (files : FileSystem) (id : String) (enabled : Bool) :
    Managed Unit :=
  match registry.skills.find? id with
  | none => registry.refuse files (.notFound id)
  | some skill =>
    persist { registry with skills := registry.skills.insert id { skill with enabled := enabled } }
      files ()

/-- The registered skills in the order of their ids. -/
def list (registry : Registry) : List Skill := registry.skills.values

/-- The skills of a category. -/
def ofCategory (registry : Registry) (category : Category) : List Skill :=
  registry.list.filter (·.category = category)

/-- The skills that a search finds. -/
def search (registry : Registry) (query : String) : List Skill :=
  registry.list.filter (·.matchesQuery query)

/-- The fields without which a document is not imported. -/
def importedFields : List String := ["id", "name", "definition"]

/-- The fields that a document misses, in words. -/
def missingFields (document : Json) : List String :=
  (importedFields.filter fun name => (document.field name).isNull).map
    ("skill document is missing " ++ ·)

/-- Register the skill that a document describes, and return it. -/
def importDocument (registry : Registry) (files : FileSystem) (document : Json) :
    Managed Skill :=
  if !(missingFields document).isEmpty then
    registry.refuse files (.invalid (missingFields document))
  else
    match Skill.codec.read document with
    | .error error => registry.refuse files (.ofDecodeError error)
    | .ok skill =>
      let registered := registry.register files skill
      { registered with outcome := registered.outcome.map fun _ => skill }

/-- The document that describes a registered skill. -/
def exportDocument (registry : Registry) (id : String) : Except Failure Json :=
  match registry.skills.find? id with
  | some skill => .ok (Skill.codec.document skill)
  | none => .error (.notFound id)

/-- Add skills whose ids are not taken, and collect the ids that were added.  The first skill that
would be added and is not valid ends this; those before it stay. -/
def addValid : List Skill → Dict Skill → Except Failure (List String) × Dict Skill
  | [], skills => (.ok [], skills)
  | skill :: more, skills =>
    if skills.has skill.id then addValid more skills
    else if !skill.violations.isEmpty then (.error (.invalid skill.validate), skills)
    else
      let (ids, skills) := addValid more (skills.insert skill.id skill)
      (ids.map (skill.id :: ·), skills)

/-- Register the skills of the library whose ids are not taken, and return their ids.  Nothing is
written when there are none. -/
def registerLibrary (registry : Registry) (files : FileSystem) : Managed (List String) :=
  match addValid SkillLibrary.skills registry.skills with
  | (.error failure, skills) => refuse { registry with skills := skills } files failure
  | (.ok ids, skills) =>
    if ids.isEmpty then ⟨.ok [], registry, files⟩
    else persist { registry with skills := skills } files ids

end Registry

end SkillEngine
