import SkillEngine.Proofs.Registry.Operation

/-!
# Operations that fail

An operation fails because it is refused or because its result cannot be
saved.  A refusal leaves everything as it was.  A save that fails does not take
the change back: the registry is the one that the operation leads to without a
store.
-/

namespace SkillEngine.Registry

/-- The same registry without its store. -/
def unstored (registry : Registry) : Registry :=
  { registry with store := none }

/-- An operation that fails is refused, with and without a store, and changes
nothing; or it succeeds without a store, the save of the skills that it leads
to fails, and the registry holds those skills. -/
theorem perform_error {registry : Registry} {files : FileSystem}
    {operation : Operation} {failure : Failure}
    (herror :
      (registry.perform files operation).outcome = .error failure) :
    let done := registry.perform files operation
    let bare := registry.unstored.perform files operation
    (bare.outcome = .error failure ∧
      done.registry = registry ∧ done.files = files) ∨
    (bare.outcome = .ok () ∧
      done.registry = { bare.registry with store := registry.store } ∧
      ∃ store, registry.store = some store ∧
        store.save bare.registry.skills.values files =
          (.error failure, done.files)) := by
  simp only [perform_eq] at herror ⊢
  cases hplan : plan registry.skills operation with
  | error other =>
      left
      simp only [hplan, settle, refuse] at herror
      simp [unstored, hplan, settle, refuse, herror]
  | ok change =>
      cases change with
      | none => simp [hplan, settle] at herror
      | some skills =>
          -- The plan went through, so only the save can have failed.
          right
          cases hstore : registry.store with
          | none => simp [hplan, settle, persist, hstore] at herror
          | some store =>
              simp only [hplan, settle, persist, hstore] at herror
              cases hsaved : store.save skills.values files with
              | mk outcome saved =>
                  cases outcome with
                  | ok done => simp [hsaved, Except.map] at herror
                  | error other =>
                      obtain rfl : other = failure := by
                        simpa [hsaved, Except.map] using herror
                      simp [unstored, hplan, settle, persist, hstore, hsaved]

/-- A file where the directory of a store would have to be. -/
def blocked : FileSystem := ⟨[(["blocked"], .file "x".toUTF8)], []⟩

/-- A skill without parameters. -/
def counting : Skill :=
  SkillLibrary.textStats.skill "count" "Count" "Count words" .custom []

/-- The failed registration of a skill, seen as the failure of its save. -/
theorem register_blocked_error :
    let registry : Registry := ⟨[], some ⟨"blocked/skills.json"⟩⟩
    let done := registry.perform blocked (.register counting)
    let bare := registry.unstored.perform blocked (.register counting)
    done.outcome = .error (.file .exists) ∧
      bare.outcome = .ok () ∧
      done.registry = { bare.registry with store := registry.store } ∧
      ∃ store, registry.store = some store ∧
        store.save bare.registry.skills.values blocked =
          (.error (.file .exists), done.files) := by
  intro registry done bare
  have herror : done.outcome = .error (.file .exists) := by decide
  have hbare : bare.outcome = .ok () := by decide
  rcases perform_error herror with ⟨hrefused, -⟩ | hsaving
  · rw [hbare] at hrefused
    contradiction
  · exact ⟨herror, hsaving⟩

/-- A registry opened on a store that cannot be written keeps the skill whose
registration failed. -/
theorem register_blocked_keeps_skill :
    ∃ registry, openStore ⟨"blocked/skills.json"⟩ blocked = .ok registry ∧
      (registry.perform blocked (.register counting)).outcome =
        .error (.file .exists) ∧
      registry.skills.has "count" = false ∧
      (registry.perform blocked (.register counting)).registry.skills.has
        "count" = true := by
  refine ⟨⟨[], some ⟨"blocked/skills.json"⟩⟩, ?_, ?_, ?_, ?_⟩
  · rfl
  · rfl
  · rfl
  · rfl

end SkillEngine.Registry
