import SkillEngine.CommandLine.Program
import SkillEngine.Proofs.Registry.Change
import SkillEngine.Proofs.Registry.Saving

/-!
# Opening the registry

A process loads its settings and, for a command on skills, opens the registry
of the store that they lead to.  Where the settings say so it adds the library
to what it opens, which saves the registry if anything was missing.
-/

namespace SkillEngine.CommandLine

open Registry (openStore)

variable {σ : Type} {send : Http.Transport σ} {world : σ} {process : Process}
  {arguments : List String} {loader : Loader} {settings : Settings}
  {command : Command} {registry : Registry} {store : Store} {library : Bool}

/-! ## Processes that work with a store -/

/-- The settings lead to the store, and say whether the library is added to
what is opened. -/
structure Uses (settings : Settings) (surroundings : Surroundings)
    (store : Store) (library : Bool) : Prop where
  path : settings.storePath surroundings = store.path
  library : settings.skills.loadLibrary = library

/-- The arguments ask for the command, and the settings are loaded. -/
def Starts (process : Process) (arguments : List String) (loader : Loader)
    (command : Command) : Prop :=
  ∃ settingsPath, invocation arguments = .ok ⟨settingsPath, command⟩ ∧
    Loader.load process.files process.surroundings settingsPath = .ok loader

theorem run_of_starts (h : Starts process arguments loader command) :
    run send world process arguments =
      (carryOut send world process loader command).ending := by
  obtain ⟨settingsPath, hinvocation, hload⟩ := h
  simp only [run, hinvocation, hload]

/-- A process that does not come to its command leaves the files alone. -/
theorem run_cases (send : Http.Transport σ) (world : σ) (process : Process)
    (arguments : List String) :
    (∃ loader command, Starts process arguments loader command) ∨
      (run send world process arguments).files = process.files := by
  cases hinvocation : invocation arguments with
  | error stop =>
      right
      cases stop <;> simp only [run, hinvocation]
  | ok invocation =>
      cases hload : Loader.load process.files process.surroundings
          invocation.settingsPath with
      | error failure =>
          right
          simp only [run, hinvocation, hload]
          rfl
      | ok loader =>
          exact .inl ⟨loader, invocation.command, invocation.settingsPath,
            hinvocation, hload⟩

/-! ## Opening the registry -/

theorem openRegistry_eq
    (huses : Uses settings process.surroundings store library) :
    openRegistry process settings =
      match openStore store process.files with
      | .error failure => Registry.refuse .empty process.files failure
      | .ok registry =>
        if library then registry.perform process.files .registerLibrary
        else ⟨.ok (), registry, process.files⟩ := by
  rw [openRegistry, huses.path, huses.library]
  rfl

/-- What is opened is kept in the store, with each skill under its id. -/
theorem openRegistry_indexed
    (huses : Uses settings process.surroundings store library)
    (hdone : (openRegistry process settings).outcome = .ok ()) :
    (openRegistry process settings).registry.store = some store ∧
      Registry.Indexed (openRegistry process settings).registry.skills := by
  rw [openRegistry_eq huses] at hdone ⊢
  cases hopen : openStore store process.files with
  | error failure =>
      rw [hopen] at hdone
      cases hdone
  | ok registry =>
      obtain ⟨skills, -, hregistry⟩ := exceptMap_eq_ok_iff.mp hopen
      have hstored : registry.store = some store := by rw [← hregistry]
      have hindexed := (Registry.Opened.stored hopen).indexed
      dsimp only
      split
      · rcases registry.perform_change process.files .registerLibrary with
          hsame | ⟨changed, hchange, hchanged⟩
        · rw [hsame]
          exact ⟨hstored, hindexed⟩
        · rw [hchanged]
          exact ⟨hstored, hindexed.change hchange⟩
      · exact ⟨hstored, hindexed⟩

/-- On a store that was saved before, the library is added to what is opened;
at most that is saved. -/
theorem openRegistry_library
    (huses : Uses settings process.surroundings store true)
    (hopen : openStore store process.files = .ok registry)
    (hsaved : store.Saved process.files) :
    let opened := openRegistry process settings
    let completed :=
      (Registry.addMissing SkillLibrary.skills registry.skills).2
    opened.outcome = .ok () ∧
      opened.registry = { registry with skills := completed } ∧
      (opened.files = process.files ∨
        store.save completed.values process.files = (.ok (), opened.files)) := by
  intro opened completed
  have hopened : opened =
      (registry.registerLibrary process.files).silent := by
    have heq := openRegistry_eq huses
    rw [hopen] at heq
    exact heq
  have hregistry : opened.registry = { registry with skills := completed } := by
    rw [hopened]
    exact registry.registry_registerLibrary process.files
  by_cases habsent : registry.absentIds = []
  · rw [(Registry.registerLibrary_of_present habsent process.files).2]
      at hopened
    exact ⟨hopened ▸ rfl, hregistry, .inl (hopened ▸ rfl)⟩
  · obtain ⟨skills, -, hstore⟩ := exceptMap_eq_ok_iff.mp hopen
    have hstored : registry.store = some store := by rw [← hstore]
    obtain ⟨saved, hsave⟩ := hsaved.save completed.values
    have hkept : opened =
        ⟨.ok (), { registry with skills := completed }, saved⟩ := by
      rw [hopened, Registry.registerLibrary_of_absent habsent,
        Registry.silent_persist]
      simp only [Registry.persist, hstored, completed, hsave]
      rfl
    exact ⟨hkept ▸ rfl, hregistry, .inr (hkept ▸ hsave)⟩

end SkillEngine.CommandLine
