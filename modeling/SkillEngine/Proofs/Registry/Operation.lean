import SkillEngine.Proofs.Registry.Adding

/-!
# Operations of a registry

The operations that change a registry, under one type.  What an operation asks
for is decided by the skills alone: a refusal, nothing, or new skills.
`perform_eq` says that an operation does what it plans and writes the new
skills to the store, if there is one; everything else about operations is
derived from it.
-/

namespace SkillEngine

/-- The same without the value. -/
def Managed.silent {α : Type} (managed : Managed α) : Managed Unit :=
  { managed with outcome := managed.outcome.map fun _ => () }

namespace Registry

/-- An operation that changes the registered skills. -/
inductive Operation where
  | register (skill : Skill)
  | importDocument (document : Json)
  | unregister (id : String)
  | setEnabled (id : String) (enabled : Bool)
  | registerLibrary

/-- Do what an operation says. -/
def perform (registry : Registry) (files : FileSystem) :
    Operation → Managed Unit
  | .register skill => registry.register files skill
  | .importDocument document => (registry.importDocument files document).silent
  | .unregister id => (registry.unregister files id).silent
  | .setEnabled id enabled => registry.setEnabled files id enabled
  | .registerLibrary => (registry.registerLibrary files).silent

/-! ## What an operation asks for -/

/-- The skills after a skill is registered, if it can be. -/
def planRegister (skills : Dict Skill) (skill : Skill) :
    Except Failure (Option (Dict Skill)) :=
  match refusal? ⟨skills, none⟩ skill with
  | some failure => .error failure
  | none => .ok (some (skills.insert skill.id skill))

/-- What an operation asks for: a refusal, or new skills if it changes any. -/
def plan (skills : Dict Skill) :
    Operation → Except Failure (Option (Dict Skill))
  | .register skill => planRegister skills skill
  | .importDocument document =>
    if !(missingFields document).isEmpty then
      .error (.invalid (missingFields document))
    else
      match Skill.codec.read document with
      | .error error => .error (.ofDecodeError error)
      | .ok skill => planRegister skills skill
  | .unregister id =>
    match skills.find? id with
    | none => .error (.notFound id)
    | some skill =>
      if skill.enabled then .error (stillEnabled id)
      else .ok (some (skills.erase id))
  | .setEnabled id enabled =>
    match skills.find? id with
    | none => .error (.notFound id)
    | some skill =>
      .ok (some (skills.insert id { skill with enabled := enabled }))
  | .registerLibrary =>
    if (addMissing SkillLibrary.skills skills).1.isEmpty then .ok none
    else .ok (some (addMissing SkillLibrary.skills skills).2)

/-- Carry out what is asked for. -/
def settle (registry : Registry) (files : FileSystem) :
    Except Failure (Option (Dict Skill)) → Managed Unit
  | .error failure => registry.refuse files failure
  | .ok none => ⟨.ok (), registry, files⟩
  | .ok (some skills) => persist { registry with skills := skills } files ()

/-! ## An operation does what it plans -/

theorem silent_persist {α : Type} (registry : Registry) (files : FileSystem)
    (value : α) :
    (registry.persist files value).silent = registry.persist files () := by
  rw [persist, persist]
  cases registry.store with
  | none => rfl
  | some store =>
      cases hsaved : (store.save registry.skills.values files).1 with
      | ok done => simp [Managed.silent, hsaved, Except.map]
      | error failure => simp [Managed.silent, hsaved, Except.map]

theorem register_eq (registry : Registry) (files : FileSystem) (skill : Skill) :
    registry.register files skill =
      registry.settle files (planRegister registry.skills skill) := by
  have hrefusal : refusal? ⟨registry.skills, none⟩ skill =
      registry.refusal? skill := rfl
  rw [register, planRegister, hrefusal]
  cases registry.refusal? skill with
  | none => rfl
  | some failure => rfl

theorem importDocument_eq (registry : Registry) (files : FileSystem)
    (document : Json) :
    (registry.importDocument files document).silent =
      registry.settle files
        (plan registry.skills (.importDocument document)) := by
  rw [importDocument, plan]
  split
  · rfl
  · cases Skill.codec.read document with
    | error error => rfl
    | ok skill =>
        simp only [Managed.silent]
        rw [← register_eq]
        cases houtcome : (registry.register files skill).outcome with
        | ok done => simp [Except.map, ← houtcome]
        | error failure => simp [Except.map, ← houtcome]

theorem perform_eq (registry : Registry) (files : FileSystem)
    (operation : Operation) :
    registry.perform files operation =
      registry.settle files (plan registry.skills operation) := by
  cases operation with
  | register skill => exact registry.register_eq files skill
  | importDocument document => exact registry.importDocument_eq files document
  | unregister id =>
      rw [perform, unregister, plan]
      cases registry.skills.find? id with
      | none => rfl
      | some skill =>
          by_cases henabled : skill.enabled
          · simp only [henabled, if_true]
            rfl
          · simp only [henabled]
            exact silent_persist _ files skill
  | setEnabled id enabled =>
      rw [perform, setEnabled, plan]
      cases registry.skills.find? id with
      | none => rfl
      | some skill => rfl
  | registerLibrary =>
      rw [perform, registerLibrary_eq, plan]
      cases hadded : addMissing SkillLibrary.skills registry.skills with
      | mk ids skills =>
          by_cases hnone : ids.isEmpty
          · simp only [hnone, if_true]
            rfl
          · simp only [hnone]
            exact silent_persist _ files ids

end Registry

end SkillEngine
