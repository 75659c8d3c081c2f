import SkillEngine.Proofs.CommandLine.Opening
import SkillEngine.Proofs.Registry.Absence
import SkillEngine.Proofs.Registry.Library

/-!
# Removal by the program

A removed skill is gone for all later processes that work with the same store
and settings, until one of them imports a skill with its id or registers the
library.  The invariant is that the store lacks the id: each process, whatever
its command and however it ends, keeps it.  The exception is a skill of the
library while the settings add the library to every registry that is opened;
the next process has it again.
-/

namespace SkillEngine.CommandLine

open Registry (Misses openStore)

variable {σ : Type} {send : Http.Transport σ} {world : σ} {process : Process}
  {arguments : List String} {loader : Loader} {settings : Settings}
  {command : Command} {registry : Registry} {store : Store} {library : Bool}
  {id : String}

/-! ## Opening the registry -/

/-- No skill of the library that is added to what is opened has the id. -/
def Unlisted (library : Bool) (id : String) : Prop :=
  library = true → ∀ skill ∈ SkillLibrary.skills, skill.id ≠ id

/-- Opening a registry on a store that lacks the id does not bring it about. -/
theorem openRegistry_misses (hlacks : store.Lacks id process.files)
    (huses : Uses settings process.surroundings store library)
    (hunlisted : Unlisted library id) :
    let opened := openRegistry process settings
    store.Lacks id opened.files ∧
      (opened.outcome = .ok () → opened.registry.Misses store id) := by
  intro opened
  have hopened := openRegistry_eq huses
  cases hopen : openStore store process.files with
  | error failure =>
      have hrefused : opened =
          Registry.refuse .empty process.files failure := by
        simpa only [hopen] using hopened
      rw [hrefused]
      exact ⟨hlacks, fun h => by cases h⟩
  | ok registry =>
      have hmisses := Registry.misses_of_open hlacks hopen
      cases library with
      | false =>
          have hstored : opened = ⟨.ok (), registry, process.files⟩ := by
            simpa [hopen] using hopened
          rw [hstored]
          exact ⟨hlacks, fun _ => hmisses⟩
      | true =>
          have hadded : opened =
              registry.perform process.files .registerLibrary := by
            simpa [hopen] using hopened
          have hspares : Registry.Operation.Spares .registerLibrary id :=
            ⟨fun _ h => h.elim, fun _ => hunlisted rfl⟩
          obtain ⟨hregistry, hfiles⟩ := hmisses.perform hlacks hspares
          rw [hadded]
          exact ⟨hfiles, fun _ => hregistry⟩

/-! ## Commands that do not add the skill -/

/-- The command neither registers the library nor imports a skill with the id
from the files. -/
structure Command.Spares (command : Command) (files : FileSystem)
    (id : String) : Prop where
  library : command ≠ .registerLibrary
  imported : ∀ file text document skill, command = .importSkill file →
    files.readText file = .ok text → Json.read? text = some document →
    Skill.codec.read document = .ok skill → skill.id ≠ id

theorem files_managed {α : Type} (managed : Managed α)
    (render : α → List String) :
    (Report.managed managed render).files = managed.files := by
  rw [Report.managed]
  split <;> rfl

theorem lacks_importFile (hmisses : registry.Misses store id)
    (hlacks : store.Lacks id process.files) {file : String}
    (hspares : Command.Spares (.importSkill file) process.files id) :
    store.Lacks id (importFile process registry file).files := by
  rw [importFile]
  split
  · exact hlacks
  next text htext =>
    split
    · exact hlacks
    next document hdocument =>
      have hoperation :
          Registry.Operation.Spares (.importDocument document) id :=
        ⟨fun skill hread =>
          hspares.imported file text document skill rfl htext hdocument hread,
          by simp⟩
      rw [files_managed]
      exact (hmisses.perform hlacks hoperation).2

theorem lacks_exportFile (hlacks : store.Lacks id process.files)
    (exported : String) (output : Option String) :
    store.Lacks id (exportFile process registry exported output).files := by
  unfold exportFile
  split
  · exact hlacks
  · exact hlacks
  next document path hdocument =>
    split
    · exact hlacks
    next files hwrite =>
      -- The skill may be written even over the store.
      rw [Registry.exportDocument] at hdocument
      split at hdocument
      next skill _ =>
        obtain rfl := Except.ok.inj hdocument
        exact hlacks.write (Store.withholds_document skill) hwrite
      next => cases hdocument

theorem lacks_onRegistry (hmisses : registry.Misses store id)
    (hlacks : store.Lacks id process.files)
    (hspares : command.Spares process.files id) :
    store.Lacks id
      (onRegistry send world process settings registry command).files := by
  cases command with
  | listSkills category =>
      rw [onRegistry, listSkills.eq_def]
      split
      · exact hlacks
      · split <;> exact hlacks
  | setEnabled other enabled =>
      have hoperation : Registry.Operation.Spares (.setEnabled other enabled) id :=
        ⟨fun _ h => h.elim, by simp⟩
      rw [onRegistry, files_managed]
      exact (hmisses.perform hlacks hoperation).2
  | removeSkill other =>
      have hoperation : Registry.Operation.Spares (.unregister other) id :=
        ⟨fun _ h => h.elim, by simp⟩
      rw [onRegistry, files_managed]
      exact (hmisses.perform hlacks hoperation).2
  | importSkill file => exact lacks_importFile hmisses hlacks hspares
  | exportSkill other output => exact lacks_exportFile hlacks other output
  | registerLibrary => exact absurd rfl hspares.library
  | showSkill _ => exact hlacks
  | searchSkills _ => exact hlacks
  | runSkill _ _ _ _ => exact hlacks
  | listTools _ => exact hlacks
  | showSettings _ => exact hlacks
  | showVersion => exact hlacks
  | completions => exact hlacks

/-- A process that works with the store and adds no skill with the id. -/
def Process.Spares (process : Process) (arguments : List String)
    (store : Store) (library : Bool) (id : String) : Prop :=
  ∀ loader command, Starts process arguments loader command →
    Uses loader.settings process.surroundings store library ∧
      command.Spares (openRegistry process loader.settings).files id

theorem lacks_carryOut (hlacks : store.Lacks id process.files)
    (huses : Uses loader.settings process.surroundings store library)
    (hunlisted : Unlisted library id)
    (hspares : command.Spares (openRegistry process loader.settings).files id) :
    store.Lacks id (carryOut send world process loader command).files := by
  obtain ⟨hopened, hmisses⟩ := openRegistry_misses hlacks huses hunlisted
  unfold carryOut
  split
  · exact hlacks
  · exact hlacks
  · exact hlacks
  · exact hlacks
  · dsimp only
    split
    · exact hopened
    next hdone =>
      have hmissing := hmisses hdone
      generalize openRegistry process loader.settings = opened at *
      exact @lacks_onRegistry σ send world { process with files := opened.files }
        loader.settings command opened.registry store id hmissing hopened hspares

/-- A process that adds no skill with the id keeps it out of the store. -/
theorem lacks_run (hlacks : store.Lacks id process.files)
    (hunlisted : Unlisted library id)
    (hspares : process.Spares arguments store library id) :
    store.Lacks id (run send world process arguments).files := by
  rcases run_cases send world process arguments with
    ⟨loader, command, hstarts⟩ | hfiles
  · obtain ⟨huses, hcommand⟩ := hspares loader command hstarts
    rw [run_of_starts hstarts]
    exact lacks_carryOut hlacks huses hunlisted hcommand
  · rwa [hfiles]

/-! ## Processes one after another -/

/-- The files that may be found later: processes have run that work with the
store and add no skill with the id, and in between anything may have changed
but the content of the store file. -/
inductive Later (store : Store) (library : Bool) (id : String)
    (first : FileSystem) : FileSystem → Prop
  | start : Later store library id first first
  | elsewhere {files other : FileSystem}
      (hlater : Later store library id first files)
      (hsame : other.read store.path = files.read store.path) :
      Later store library id first other
  | ran {σ : Type} (send : Http.Transport σ) (world : σ) {process : Process}
      {arguments : List String}
      (hlater : Later store library id first process.files)
      (hspares : process.Spares arguments store library id) :
      Later store library id first (run send world process arguments).files

theorem Later.lacks {first files : FileSystem}
    (hlater : Later store library id first files)
    (hunlisted : Unlisted library id) (hlacks : store.Lacks id first) :
    store.Lacks id files := by
  induction hlater with
  | start => exact hlacks
  | elsewhere _ hsame ih =>
      obtain ⟨content, hread, hcontent⟩ := ih
      exact ⟨content, hsame.trans hread, hcontent⟩
  | ran send world _ hspares ih => exact lacks_run ih hunlisted hspares

/-! ## What is found of an id -/

/-- The command looks for skills. -/
def Command.Looks : Command → Prop
  | .listSkills _ | .showSkill _ | .searchSkills _ | .runSkill .. => True
  | _ => False

/-- How a command that looks for skills ends on an open registry, if the id
means nothing there. -/
def Command.Overlooks (id : String) (registry : Registry) (files : FileSystem)
    (ending : Ending) : Command → Prop
  | .showSkill shown => shown = id →
    ending = ⟨0, linesText ["Skill '" ++ id ++ "' not found."], "", files⟩
  | .listSkills none =>
    ending = ⟨0, linesText (skillList registry.list), "", files⟩
  | .listSkills (some name) => ∀ category, Category.ofName? name = some category →
    ending =
      ⟨0, linesText (skillList (registry.ofCategory category)), "", files⟩
  | .searchSkills query =>
    ending =
      ⟨0, linesText (searchList query (registry.search query)), "", files⟩
  | .runSkill ran _ _ asJson => ran = id →
    let (printed, reported) :=
      resultLines (.failed (Failure.notFound id).message) asJson
    ending = ⟨1, linesText printed, linesText (reported ++
      ["❌ Error: " ++ ("skill " ++ id ++ " failed")]), files⟩
  | _ => True

/-- A process that looks for skills finds none with the id: it ends with the
failure to open the registry, or the id is not among the skills of the registry
and the command comes to nothing with it. -/
def FindsNone (process : Process) (settings : Settings) (command : Command)
    (id : String) (ending : Ending) : Prop :=
  let opened := openRegistry process settings
  match opened.outcome with
  | .error failure => ending = (Report.ofFailure opened.files failure).ending
  | .ok () =>
    (∀ skill ∈ opened.registry.list, skill.id ≠ id) ∧
      command.Overlooks id opened.registry opened.files ending

theorem FindsNone.of_opened {ending : Ending}
    (h : FindsNone process settings command id ending)
    (hdone : (openRegistry process settings).outcome = .ok ()) :
    (∀ skill ∈ (openRegistry process settings).registry.list, skill.id ≠ id) ∧
      command.Overlooks id (openRegistry process settings).registry
        (openRegistry process settings).files ending := by
  simpa only [FindsNone, hdone] using h

theorem runSkill_of_missing (hmissing : registry.skills.find? id = none)
    (parameters : List (String × String)) (document : Option String)
    (asJson : Bool) :
    runSkill send world process settings registry id parameters document asJson =
      let (printed, reported) :=
        resultLines (.failed (Failure.notFound id).message) asJson
      ⟨printed, reported, process.files,
        some (.other ("skill " ++ id ++ " failed"))⟩ := by
  have hran : ∀ backends : Backends σ, ∀ context,
      execute backends registry.skills id context =
        pure (.failed (Failure.notFound id).message, context) := by
    intro backends context
    rw [execute, executeWithin]
    simp only [hmissing]
  simp only [runSkill, hran]
  rfl

theorem findsNone_of_lacks (hlacks : store.Lacks id process.files)
    (huses : Uses loader.settings process.surroundings store library)
    (hunlisted : Unlisted library id) (hlooks : command.Looks) :
    FindsNone process loader.settings command id
      (carryOut send world process loader command).ending := by
  obtain ⟨-, hmisses⟩ := openRegistry_misses hlacks huses hunlisted
  cases hdone : (openRegistry process loader.settings).outcome with
  | error failure =>
      simp only [FindsNone, hdone]
      cases command with
      | listSkills _ | showSkill _ | searchSkills _ | runSkill _ _ _ _ =>
          simp only [carryOut, hdone]
      | _ => exact hlooks.elim
  | ok done =>
      have hmissing := (hmisses hdone).missing
      simp only [FindsNone, hdone]
      refine ⟨(hmisses hdone).ne_id, ?_⟩
      cases command with
      | showSkill shown =>
          rintro rfl
          simp only [carryOut, hdone, onRegistry, hmissing]
          rfl
      | listSkills category =>
          cases category with
          | none =>
              simp only [carryOut, hdone, onRegistry]
              rfl
          | some name =>
              intro category hcategory
              simp only [carryOut, hdone, onRegistry, listSkills, hcategory]
              rfl
      | searchSkills query =>
          simp only [carryOut, hdone, onRegistry]
          rfl
      | runSkill ran parameters document asJson =>
          rintro rfl
          simp only [carryOut, hdone, onRegistry, runSkill_of_missing hmissing]
          rfl
      | _ => exact hlooks.elim

/-- A skill that is in the registry is shown. -/
theorem run_of_find? {skill : Skill}
    (hstarts : Starts process arguments loader (.showSkill id))
    (hdone : (openRegistry process loader.settings).outcome = .ok ())
    (hfound : (openRegistry process loader.settings).registry.skills.find? id =
      some skill) :
    run send world process arguments =
      ⟨0, linesText (skillDetails skill), "",
        (openRegistry process loader.settings).files⟩ := by
  rw [run_of_starts hstarts]
  simp only [carryOut, hdone, onRegistry, hfound]
  rfl

theorem not_findsNone_of_find? {skill : Skill} {ending : Ending}
    (huses : Uses settings process.surroundings store library)
    (hdone : (openRegistry process settings).outcome = .ok ())
    (hfound : (openRegistry process settings).registry.skills.find? id =
      some skill) :
    ¬ FindsNone process settings command id ending := by
  intro hnone
  obtain ⟨habsent, -⟩ := hnone.of_opened hdone
  obtain ⟨-, hindexed⟩ := openRegistry_indexed huses hdone
  obtain rfl : skill.id = id := hindexed.keyed _ (Dict.mem_of_find? hfound)
  exact habsent skill (hindexed.mem_list_iff.mpr hfound) rfl

/-! ## Removal -/

/-- A removal that succeeds leaves a store that lacks the id. -/
theorem lacks_of_removal
    (hstarts : Starts process arguments loader (.removeSkill id))
    (huses : Uses loader.settings process.surroundings store library)
    (hdone : (run send world process arguments).code = 0) :
    store.Lacks id (run send world process arguments).files := by
  rw [run_of_starts hstarts] at hdone ⊢
  cases hopened : (openRegistry process loader.settings).outcome with
  | error failure =>
      simp [carryOut, hopened, Report.ending, Report.ofFailure] at hdone
  | ok opened =>
      obtain ⟨hstored, hindexed⟩ := openRegistry_indexed huses hopened
      simp only [carryOut, hopened, onRegistry, Report.managed] at hdone ⊢
      split at hdone
      next removed hremoved =>
        exact Registry.lacks_of_unregister hindexed hstored hremoved
      next => simp [Report.ending, Report.ofFailure] at hdone

/-- On a store that was saved before, a skill that is disabled is removed. -/
theorem run_removal (send : Http.Transport σ) (world : σ) {skill : Skill}
    (hstarts : Starts process arguments loader (.removeSkill id))
    (huses : Uses loader.settings process.surroundings store library)
    (hopened : (openRegistry process loader.settings).outcome = .ok ())
    (hsaved : store.Saved (openRegistry process loader.settings).files)
    (hfound : (openRegistry process loader.settings).registry.skills.find? id =
      some skill)
    (hdisabled : skill.enabled = false) :
    let opened := openRegistry process loader.settings
    let ending := run send world process arguments
    ending.code = 0 ∧
      store.save (opened.registry.skills.erase id).values opened.files =
        (.ok (), ending.files) := by
  intro opened ending
  obtain ⟨hstored, -⟩ := openRegistry_indexed huses hopened
  obtain ⟨left, hsave⟩ := hsaved.save (opened.registry.skills.erase id).values
  have hending : ending = (Report.lines left
      ["✅ Removed " ++ skill.name ++ " (" ++ skill.id ++ ")"]).ending := by
    have hran : ending = _ := run_of_starts hstarts
    rw [hran]
    simp only [opened] at hsave
    simp only [carryOut, hopened, onRegistry, Registry.unregister, hfound,
      hdisabled, Registry.persist, hstored, hsave, Report.managed]
    rfl
  rw [hending]
  exact ⟨rfl, hsave⟩

theorem find?_library {skill : Skill} (hskill : skill ∈ SkillLibrary.skills) :
    SkillLibrary.skills.find? (·.id == skill.id) = some skill := by
  obtain ⟨found, hfound⟩ : ∃ found,
      SkillLibrary.skills.find? (·.id == skill.id) = some found := by
    rw [← Option.isSome_iff_exists, List.find?_isSome]
    exact ⟨skill, hskill, beq_self_eq_true skill.id⟩
  have hid : found.id = skill.id := by
    simpa using List.find?_some hfound
  rw [hfound, List.inj_on_of_nodup_map SkillLibrary.nodup_ids
    (List.mem_of_find?_eq_some hfound) hskill hid]

/-- Where the library is added to what is opened, a skill of the library that
the store lacks is in the registry as the library has it. -/
theorem find?_of_library (hlacks : store.Lacks id process.files)
    (huses : Uses settings process.surroundings store true)
    (hdone : (openRegistry process settings).outcome = .ok ())
    {skill : Skill} (hskill : skill ∈ SkillLibrary.skills)
    (hid : skill.id = id) :
    (openRegistry process settings).registry.skills.find? id = some skill := by
  rw [openRegistry_eq huses] at hdone ⊢
  cases hopen : openStore store process.files with
  | error failure =>
      rw [hopen] at hdone
      cases hdone
  | ok registry =>
      have hmissing := (Registry.misses_of_open hlacks hopen).missing
      have hadded : (registry.perform process.files .registerLibrary).registry =
          (registry.registerLibrary process.files).registry := rfl
      subst hid
      simp only [if_true, hadded, Registry.registry_registerLibrary,
        Registry.find?_addMissing_eq, hmissing, Option.none_or]
      exact find?_library hskill

/-- A skill that was removed is found by no later process on the same store and
settings, until one imports a skill with its id or registers the library;
unless the settings add the library to what is opened and the skill is one of
the library.  Then the next process that opens the registry has the library's
skill again. -/
theorem removal_lasts
    (hstarts : Starts process arguments loader (.removeSkill id))
    (huses : Uses loader.settings process.surroundings store library)
    (hdone : (run send world process arguments).code = 0) :
    let left := (run send world process arguments).files
    (Unlisted library id →
      ∀ {τ : Type} (send : Http.Transport τ) (world : τ) (process : Process)
        (arguments : List String) (loader : Loader) (command : Command),
        Later store library id left process.files →
        Starts process arguments loader command →
        Uses loader.settings process.surroundings store library → command.Looks →
        FindsNone process loader.settings command id
          (run send world process arguments)) ∧
    (library = true →
      ∀ skill ∈ SkillLibrary.skills, skill.id = id →
        ∀ (process : Process) (settings : Settings),
          process.files.read store.path = left.read store.path →
          Uses settings process.surroundings store library →
          (openRegistry process settings).outcome = .ok () →
          (openRegistry process settings).registry.skills.find? id =
            some skill) := by
  intro left
  have hleft : store.Lacks id left := lacks_of_removal hstarts huses hdone
  constructor
  · intro hunlisted τ send world later arguments loader command hlater hcommand
      hsettings hlooks
    rw [run_of_starts hcommand]
    exact findsNone_of_lacks (hlater.lacks hunlisted hleft) hsettings hunlisted
      hlooks
  · rintro rfl skill hskill hid next settings hsame hsettings hopened
    obtain ⟨content, hread, hcontent⟩ := hleft
    exact find?_of_library ⟨content, hsame.trans hread, hcontent⟩ hsettings
      hopened hskill hid

/-! ## A skill that is gone and one that returns -/

section Example

open Registry (filesOf load_saved counting counting_canonical)

/-- A process on a store of its own, with nothing else set. -/
def onFiles (files : FileSystem) : Process where
  surroundings := ⟨[("QUILL_SKILLS_PATH", "skills.json")], some "/root"⟩
  files := files
  facts := ⟨"linux", "x86_64", "unix", 1, "release"⟩

/-- The settings that such a process loads. -/
def defaults : Loader where
  path := "/root/.quill/quill.toml"
  settings := Settings.default.override [("QUILL_SKILLS_PATH", "skills.json")]

theorem files_onFiles (files : FileSystem) : (onFiles files).files = files :=
  rfl

theorem uses_defaults (files : FileSystem) :
    Uses defaults.settings (onFiles files).surroundings ⟨"skills.json"⟩ true :=
  ⟨rfl, rfl⟩

theorem starts_onFiles {skills : List Skill}
    (hinvocation : invocation arguments = .ok ⟨none, command⟩) :
    Starts (onFiles (filesOf skills)) arguments defaults command := by
  have hload : Loader.load (filesOf skills)
      ⟨[("QUILL_SKILLS_PATH", "skills.json")], some "/root"⟩ none =
        .ok defaults := rfl
  exact ⟨none, hinvocation, hload⟩

theorem saved_filesOf (skills : List Skill) :
    Store.Saved ⟨"skills.json"⟩ (filesOf skills) := ⟨skills, .empty, rfl⟩

theorem files_of_save {skills more : List Skill} {saved : FileSystem}
    (hsave : Store.save ⟨"skills.json"⟩ more (filesOf skills) =
      (.ok (), saved)) : saved = filesOf more := by
  have hagain : Store.save ⟨"skills.json"⟩ more (filesOf skills) =
      (.ok (), filesOf more) := rfl
  exact (Prod.ext_iff.mp (hsave.symm.trans hagain)).2

/-- What is left in the store when the library was added to a single skill and
then that skill was removed. -/
def others (skill : Skill) : List Skill :=
  ((Registry.addMissing SkillLibrary.skills [(skill.id, skill)]).2.erase
    skill.id).values

theorem library_of_mem_others {skill other : Skill} (h : other ∈ others skill) :
    other ∈ SkillLibrary.skills := by
  obtain ⟨entry, hentry, rfl⟩ := List.mem_map.mp h
  rw [Dict.erase, List.mem_filter] at hentry
  obtain ⟨hadded, hid⟩ := hentry
  have hall : ∀ entry ∈
      (Registry.addMissing SkillLibrary.skills [(skill.id, skill)]).2,
      entry.1 ≠ skill.id → entry.2 ∈ SkillLibrary.skills :=
    Registry.forall_addMissing
      (P := fun id held => id ≠ skill.id → held ∈ SkillLibrary.skills)
      (by simp) (fun held hheld _ => hheld)
  exact hall entry hadded (by simpa using hid)

/-- A skill that is disabled and alone in the store is removed. -/
theorem run_removal_alone {skill : Skill} (hdisabled : skill.enabled = false)
    (hload : Store.load ⟨"skills.json"⟩ (filesOf [skill]) = .ok [skill])
    (hinvocation :
      invocation arguments = .ok ⟨none, .removeSkill skill.id⟩) :
    let ending := run send world (onFiles (filesOf [skill])) arguments
    ending.code = 0 ∧ ending.files = filesOf (others skill) := by
  intro ending
  have hopen : openStore ⟨"skills.json"⟩ (filesOf [skill]) =
      .ok ⟨[(skill.id, skill)], some ⟨"skills.json"⟩⟩ := by
    rw [openStore, hload]
    rfl
  obtain ⟨houtcome, hregistry, hfiles⟩ :=
    openRegistry_library (uses_defaults (filesOf [skill])) hopen
      (saved_filesOf [skill])
  obtain ⟨held, hheld⟩ : ∃ held,
      (openRegistry (onFiles (filesOf [skill])) defaults.settings).files =
        filesOf held := by
    rcases hfiles with hsame | hsave
    · exact ⟨[skill], hsame⟩
    · exact ⟨_, files_of_save hsave⟩
  have hfound : (openRegistry (onFiles (filesOf [skill]))
      defaults.settings).registry.skills.find? skill.id = some skill := by
    rw [hregistry]
    dsimp only
    rw [Registry.find?_addMissing_eq, Dict.find?, List.lookup_cons_self,
      Option.some_or]
  have hsaved : Store.Saved ⟨"skills.json"⟩
      (openRegistry (onFiles (filesOf [skill])) defaults.settings).files := by
    rw [hheld]
    exact saved_filesOf held
  obtain ⟨hcode, hsave⟩ := run_removal send world (starts_onFiles hinvocation)
    (uses_defaults (filesOf [skill])) houtcome hsaved hfound hdisabled
  rw [hheld, hregistry] at hsave
  exact ⟨hcode, files_of_save hsave⟩

/-- What is left is of the library, so the next process can open the store. -/
theorem openRegistry_others (skill : Skill) :
    (openRegistry (onFiles (filesOf (others skill)))
      defaults.settings).outcome = .ok () := by
  have hsaved : Store.save ⟨"skills.json"⟩ (others skill) .empty =
      (.ok (), filesOf (others skill)) := rfl
  have hload : Store.load ⟨"skills.json"⟩ (filesOf (others skill)) =
      .ok ((others skill).map Skill.recovered) :=
    Store.load_library hsaved fun _ => library_of_mem_others
  have hopen : openStore ⟨"skills.json"⟩ (filesOf (others skill)) = .ok
      ⟨Registry.byId ((others skill).map Skill.recovered),
        some ⟨"skills.json"⟩⟩ := by
    rw [openStore, hload]
    rfl
  exact (openRegistry_library (uses_defaults (filesOf (others skill))) hopen
    (saved_filesOf (others skill))).1

/-- A skill that counts, disabled. -/
def idle : Skill := { counting with enabled := false }

theorem load_idle :
    Store.load ⟨"skills.json"⟩ (filesOf [idle]) = .ok [idle] := by
  have hsaved : Store.save ⟨"skills.json"⟩ [idle] .empty =
      (.ok (), filesOf [idle]) := rfl
  have hcanonical : idle.Canonical := counting_canonical
  exact load_saved hsaved (by simpa using hcanonical) rfl (by decide) rfl

/-- Whoever asks for a skill of one's own that was removed is told that there is
none. -/
theorem idle_removed :
    let removed := run Http.offline () (onFiles (filesOf [idle]))
      ["skill", "remove", "count"]
    let again := onFiles removed.files
    let shown := run Http.offline () again ["skill", "show", "count"]
    removed.code = 0 ∧
      FindsNone again defaults.settings (.showSkill "count") "count" shown ∧
      shown.output = linesText ["Skill 'count' not found."] := by
  intro removed again shown
  have hremove : invocation ["skill", "remove", "count"] =
      .ok ⟨none, .removeSkill "count"⟩ := rfl
  have hshow : invocation ["skill", "show", "count"] =
      .ok ⟨none, .showSkill "count"⟩ := rfl
  obtain ⟨hcode, hfiles⟩ :
      removed.code = 0 ∧ removed.files = filesOf (others idle) :=
    run_removal_alone rfl load_idle hremove
  obtain ⟨hgone, -⟩ := removal_lasts (starts_onFiles hremove)
    (uses_defaults (filesOf [idle])) hcode
  have hlater : Later ⟨"skills.json"⟩ true "count" removed.files
      again.files := by
    rw [show again.files = removed.files from files_onFiles removed.files]
    exact .start
  have hagain : again = onFiles (filesOf (others idle)) :=
    congrArg onFiles hfiles
  have hstarts : Starts again ["skill", "show", "count"] defaults
      (.showSkill "count") := by
    rw [hagain]
    exact starts_onFiles hshow
  have hunlisted : Unlisted true "count" := fun _ => by decide
  have hnone : FindsNone again defaults.settings (.showSkill "count") "count"
      shown :=
    hgone hunlisted Http.offline () again _ defaults _ hlater hstarts
      (uses_defaults removed.files) trivial
  have houtcome : (openRegistry again defaults.settings).outcome = .ok () := by
    rw [hagain]
    exact openRegistry_others idle
  have hshown : shown = ⟨0, linesText ["Skill 'count' not found."], "",
      (openRegistry again defaults.settings).files⟩ :=
    (hnone.of_opened houtcome).2 rfl
  exact ⟨hcode, hnone, congrArg Ending.output hshown⟩

/-- The text statistics of the library. -/
def statistics : Skill :=
  SkillLibrary.textStats.skill "skill-text-stats" "Text Statistics"
    "Count words, characters, lines and paragraphs" .automation
    ["automation", "statistics"]

theorem statistics_mem : statistics ∈ SkillLibrary.skills :=
  List.mem_append_right _ (.tail _ (.tail _ (.head _)))

/-- The same, disabled. -/
def idleStatistics : Skill := { statistics with enabled := false }

theorem load_idleStatistics :
    Store.load ⟨"skills.json"⟩ (filesOf [idleStatistics]) =
      .ok [idleStatistics] := by
  have hsaved : Store.save ⟨"skills.json"⟩ [idleStatistics] .empty =
      (.ok (), filesOf [idleStatistics]) := rfl
  have hcanonical : idleStatistics.Canonical :=
    SkillLibrary.canonical statistics statistics_mem
  exact load_saved hsaved (by simpa using hcanonical) rfl (by decide) rfl

/-- Whoever asks for a skill of the library that was removed is shown it, as the
library has it. -/
theorem statistics_return :
    let removed := run Http.offline () (onFiles (filesOf [idleStatistics]))
      ["skill", "remove", "skill-text-stats"]
    let again := onFiles removed.files
    let shown := run Http.offline () again ["skill", "show", "skill-text-stats"]
    removed.code = 0 ∧
      Starts again ["skill", "show", "skill-text-stats"] defaults
        (.showSkill "skill-text-stats") ∧
      Uses defaults.settings again.surroundings ⟨"skills.json"⟩ true ∧
      shown.output = linesText (skillDetails statistics) ∧
      ¬ FindsNone again defaults.settings (.showSkill "skill-text-stats")
        "skill-text-stats" shown := by
  intro removed again shown
  have hremove : invocation ["skill", "remove", "skill-text-stats"] =
      .ok ⟨none, .removeSkill "skill-text-stats"⟩ := rfl
  have hshow : invocation ["skill", "show", "skill-text-stats"] =
      .ok ⟨none, .showSkill "skill-text-stats"⟩ := rfl
  have huses : Uses defaults.settings again.surroundings ⟨"skills.json"⟩ true :=
    uses_defaults removed.files
  have hsame : again.files = removed.files := files_onFiles removed.files
  obtain ⟨hcode, hfiles⟩ :
      removed.code = 0 ∧ removed.files = filesOf (others idleStatistics) :=
    run_removal_alone rfl load_idleStatistics hremove
  have hlacks :
      Store.Lacks ⟨"skills.json"⟩ "skill-text-stats" again.files := by
    rw [hsame]
    exact lacks_of_removal (starts_onFiles hremove) (uses_defaults _) hcode
  have hagain : again = onFiles (filesOf (others idleStatistics)) :=
    congrArg onFiles hfiles
  have hstarts : Starts again ["skill", "show", "skill-text-stats"] defaults
      (.showSkill "skill-text-stats") := by
    rw [hagain]
    exact starts_onFiles hshow
  have houtcome : (openRegistry again defaults.settings).outcome = .ok () := by
    rw [hagain]
    exact openRegistry_others idleStatistics
  have hfound : (openRegistry again defaults.settings).registry.skills.find?
      "skill-text-stats" = some statistics :=
    find?_of_library hlacks huses houtcome statistics_mem rfl
  have hshown : shown = ⟨0, linesText (skillDetails statistics), "",
      (openRegistry again defaults.settings).files⟩ :=
    run_of_find? hstarts houtcome hfound
  exact ⟨hcode, hstarts, huses, congrArg Ending.output hshown,
    not_findsNone_of_find? huses houtcome hfound⟩

end Example

end SkillEngine.CommandLine
