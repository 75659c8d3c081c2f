import Mathlib.Data.List.Induction
import SkillEngine.Config.Loader
import SkillEngine.Proofs.FileSystem.Basic

/-!
# Settings across reloads

While a process holds settings, their file is edited or taken away, variables
change, and now and then the settings are loaded again.  Whatever happens in
between, what is held was accepted as a whole: it is the content of the file
under the variables, both from the moment of the last load that succeeded.

A reload is a load of the path that is held.  The two differ in one case only,
when no file stands there: a load takes the defaults, a reload is refused.
-/

namespace SkillEngine

variable {files : FileSystem} {vars : Variables} {surroundings : Surroundings}
  {explicit : Option String}
  {path : String} {loader fresh : Loader} {content settings : Settings}

/-! ## Loading -/

/-- The settings that a path leads to: those of the file, or the defaults where
none stands. -/
inductive Settings.Found (files : FileSystem) (path : String) :
    Settings → Prop where
  | file {content : Settings} (hexists : files.exists? path = true)
      (hcontent : Settings.ofFile files path = .ok content) :
      Found files path content
  | defaults (hmissing : files.exists? path = false) :
      Found files path Settings.default

theorem Settings.accept_eq_ok_iff :
    content.accept vars = .ok settings ↔
      settings = content.override vars ∧
        ∃ issues, settings.validate = .ok issues := by
  rw [Settings.accept]
  cases hvalid : (content.override vars).validate with
  | ok issues =>
      constructor
      · intro h
        obtain rfl := Except.ok.inj h
        exact ⟨rfl, issues, hvalid⟩
      · rintro ⟨rfl, -⟩
        rfl
  | error text =>
      constructor
      · intro h
        contradiction
      · rintro ⟨rfl, issues, hissues⟩
        rw [hvalid] at hissues
        contradiction

theorem Settings.found_iff :
    Settings.Found files path content ↔
      (if files.exists? path then Settings.ofFile files path
        else .ok Settings.default) = .ok content := by
  by_cases hexists : files.exists? path = true
  · rw [if_pos hexists]
    constructor
    · intro h
      cases h with
      | file _ hcontent => exact hcontent
      | defaults hmissing =>
          rw [hexists] at hmissing
          contradiction
    · exact .file hexists
  · rw [if_neg hexists]
    constructor
    · intro h
      cases h with
      | file hfound => exact absurd hfound hexists
      | defaults => rfl
    · intro h
      obtain rfl := Except.ok.inj h
      exact .defaults (Bool.eq_false_iff.mpr hexists)

namespace Loader

theorem load_eq :
    Loader.load files surroundings explicit =
      (if files.exists? (Settings.locate explicit surroundings) then
        Settings.ofFile files (Settings.locate explicit surroundings)
      else .ok Settings.default) >>= fun content =>
        (content.accept surroundings.vars).map (.mk (Settings.locate explicit surroundings)) := by
  rw [Loader.load]
  split
  · simp only [bind_ok_eq_map]
  · simp only [ok_bind, bind_ok_eq_map]

/-- A loader holds what its path leads to, under the variables and without an
error. -/
theorem load_eq_ok_iff :
    Loader.load files surroundings explicit = .ok loader ↔
      loader.path = Settings.locate explicit surroundings ∧
        (∃ content, Settings.Found files loader.path content ∧
          loader.settings = content.override surroundings.vars) ∧
        ∃ issues, loader.settings.validate = .ok issues := by
  rw [load_eq, bind_eq_ok_iff]
  constructor
  · rintro ⟨content, hfound, hrest⟩
    obtain ⟨settings, haccept, rfl⟩ := exceptMap_eq_ok_iff.mp hrest
    obtain ⟨hsettings, hvalid⟩ := Settings.accept_eq_ok_iff.mp haccept
    exact ⟨rfl, ⟨content, Settings.found_iff.mpr hfound, hsettings⟩, hvalid⟩
  · rintro ⟨hpath, ⟨content, hfound, hsettings⟩, hvalid⟩
    have haccept : content.accept surroundings.vars = .ok loader.settings :=
      Settings.accept_eq_ok_iff.mpr ⟨hsettings, hvalid⟩
    rw [← hpath]
    exact ⟨content, Settings.found_iff.mp hfound,
      exceptMap_eq_ok_iff.mpr ⟨_, haccept, rfl⟩⟩

/-- Where a file stands, a reload does what a load of the path does. -/
theorem reload_eq_load (hexists : files.exists? loader.path = true) :
    loader.reload files surroundings.vars =
      Loader.load files surroundings (some loader.path) := by
  have hpath : Settings.locate (some loader.path) surroundings =
      loader.path := rfl
  rw [Loader.reload, load_eq, hpath, if_pos hexists, if_pos hexists]
  simp only [bind_ok_eq_map]

theorem reload_missing (hmissing : files.exists? loader.path = false) :
    loader.reload files vars =
      .error (.config ("config file not found: " ++ loader.path)) := by
  rw [Loader.reload, hmissing]
  rfl

theorem reload_eq_ok_iff :
    loader.reload files surroundings.vars = .ok fresh ↔
      files.exists? loader.path = true ∧
        Loader.load files surroundings (some loader.path) = .ok fresh := by
  cases hexists : files.exists? loader.path with
  | true => simp [reload_eq_load hexists]
  | false => simp [reload_missing hexists]

/-! ## A process that holds settings -/

/-- A process that holds settings, with the files and its surroundings as they
are. -/
structure Session where
  files : FileSystem
  surroundings : Surroundings
  loader : Loader

/-- What happens to a session.  The files can change in any way: the file of
the settings can be edited, taken away, or filled with a text that says
nothing. -/
inductive Change where
  | edit (files : FileSystem)
  | environment (surroundings : Surroundings)
  | reload

namespace Session

/-- The session after a change.  A reload that is refused leaves what is held. -/
def step (session : Session) : Change → Session
  | .edit files => { session with files := files }
  | .environment surroundings => { session with surroundings := surroundings }
  | .reload =>
    match session.loader.reload session.files session.surroundings.vars with
    | .ok loader => { session with loader := loader }
    | .error _ => session

/-- The session after changes. -/
def run (session : Session) (changes : List Change) : Session :=
  changes.foldl step session

/-- A reload succeeds. -/
def Reloads (session : Session) : Prop :=
  ∃ loader, session.loader.reload session.files session.surroundings.vars = .ok loader

/-- No reload among the changes succeeds. -/
def Quiet (session : Session) (changes : List Change) : Prop :=
  ∀ before after, changes = before ++ .reload :: after →
    ¬ (session.run before).Reloads

/-- The settings that the last success gives.  Either no reload succeeded, and
they are those of the load at the start, or they are those of a reload after
which no other one succeeded. -/
inductive Latest (start : Session) (changes : List Change) :
    Settings → Prop where
  | loaded {content : Settings}
      (hfound : Settings.Found start.files start.loader.path content)
      (hquiet : start.Quiet changes) :
      Latest start changes (content.override start.surroundings.vars)
  | reloaded {before after : List Change} {content : Settings}
      (hsplit : changes = before ++ .reload :: after)
      (hreloads : (start.run before).Reloads)
      (hcontent : Settings.ofFile (start.run before).files start.loader.path =
        .ok content)
      (hquiet : (start.run (before ++ [.reload])).Quiet after) :
      Latest start changes
        (content.override (start.run before).surroundings.vars)

variable {session start : Session} {change : Change} {changes : List Change}

theorem run_append (session : Session) (before after : List Change) :
    session.run (before ++ after) = (session.run before).run after :=
  List.foldl_append

theorem run_concat (session : Session) (changes : List Change)
    (change : Change) :
    session.run (changes ++ [change]) = (session.run changes).step change :=
  run_append session changes [change]

/-! ## One change -/

theorem step_reload_of_ok
    (h : session.loader.reload session.files session.surroundings.vars = .ok loader) :
    session.step .reload = { session with loader := loader } := by
  rw [step, h]

theorem step_reload_of_not (h : ¬ session.Reloads) :
    session.step .reload = session := by
  rw [step]
  cases hreload : session.loader.reload session.files session.surroundings.vars with
  | ok loader => exact absurd ⟨loader, hreload⟩ h
  | error failure => rfl

/-- What is held changes by a reload that succeeds, and by nothing else. -/
theorem step_cases (session : Session) (change : Change) :
    (∃ loader, change = .reload ∧
        session.loader.reload session.files session.surroundings.vars = .ok loader ∧
        (session.step change).loader = loader) ∨
      ((change = .reload → ¬ session.Reloads) ∧
        (session.step change).loader = session.loader) := by
  cases change with
  | edit files => exact .inr ⟨by simp, rfl⟩
  | environment surroundings => exact .inr ⟨by simp, rfl⟩
  | reload =>
      by_cases hreloads : session.Reloads
      · obtain ⟨loader, hreload⟩ := hreloads
        refine .inl ⟨loader, rfl, hreload, ?_⟩
        rw [step_reload_of_ok hreload]
      · refine .inr ⟨fun _ => hreloads, ?_⟩
        rw [step_reload_of_not hreloads]

/-- Where a file stands, the session comes to hold what a load gives. -/
theorem load_eq_ok_iff_reloads
    (hexists : session.files.exists? session.loader.path = true) :
    Loader.load session.files session.surroundings (some session.loader.path) =
        .ok loader ↔
      session.Reloads ∧ (session.step .reload).loader = loader := by
  rw [← reload_eq_load hexists]
  constructor
  · intro hreload
    exact ⟨⟨loader, hreload⟩, by rw [step_reload_of_ok hreload]⟩
  · rintro ⟨⟨fresh, hreload⟩, rfl⟩
    rw [step_reload_of_ok hreload]
    exact hreload

/-! ## Any number of changes -/

theorem quiet_nil (session : Session) : session.Quiet [] := by
  intro before after hsplit
  simp at hsplit

/-- A change that is no reload, or one that is refused, leaves the session
quiet. -/
theorem Quiet.concat (hquiet : session.Quiet changes)
    (hchange : change = .reload → ¬ (session.run changes).Reloads) :
    session.Quiet (changes ++ [change]) := by
  intro before after hsplit
  rcases List.eq_nil_or_concat after with rfl | ⟨front, last, rfl⟩
  · obtain ⟨rfl, hlast⟩ := List.append_inj' hsplit rfl
    exact hchange (List.singleton_inj.mp hlast)
  · rw [List.concat_eq_append, ← List.cons_append, ← List.append_assoc]
      at hsplit
    exact hquiet before front (List.append_inj' hsplit rfl).1

theorem Latest.concat (hlatest : start.Latest changes settings)
    (hchange : change = .reload → ¬ (start.run changes).Reloads) :
    start.Latest (changes ++ [change]) settings := by
  cases hlatest with
  | loaded hfound hquiet => exact .loaded hfound (hquiet.concat hchange)
  | @reloaded before after content hsplit hreloads hcontent hquiet =>
      subst hsplit
      have hsplit : before ++ .reload :: after ++ [change] =
          before ++ .reload :: (after ++ [change]) := by simp
      refine .reloaded hsplit hreloads hcontent (hquiet.concat ?_)
      rw [← run_append, List.append_assoc]
      exact hchange

/-- What is held after changes: settings without an error, from the path of the
start, that the last success gave. -/
structure Holds (start : Session) (changes : List Change) : Prop where
  path : (start.run changes).loader.path = start.loader.path
  valid : ∃ issues, (start.run changes).loader.settings.validate = .ok issues
  latest : start.Latest changes (start.run changes).loader.settings

theorem Holds.step (hholds : start.Holds changes) (change : Change) :
    start.Holds (changes ++ [change]) := by
  obtain ⟨hpath, hvalid, hlatest⟩ := hholds
  rcases step_cases (start.run changes) change with
    ⟨loader, rfl, hreload, hloader⟩ | ⟨hchange, hloader⟩
  · rw [← run_concat] at hloader
    obtain ⟨hexists, hload⟩ := reload_eq_ok_iff.mp hreload
    obtain ⟨hsame, ⟨content, hfound, hsettings⟩, hissues⟩ :=
      load_eq_ok_iff.mp hload
    replace hsame : loader.path = start.loader.path := hsame.trans hpath
    rw [hpath] at hexists
    rw [hsame] at hfound
    have hcontent : Settings.ofFile (start.run changes).files
        start.loader.path = .ok content := by
      have hread := Settings.found_iff.mp hfound
      rw [if_pos hexists] at hread
      exact hread
    refine ⟨hloader ▸ hsame, hloader ▸ hissues, ?_⟩
    rw [hloader, hsettings]
    exact .reloaded rfl ⟨loader, hreload⟩ hcontent (quiet_nil _)
  · rw [← run_concat] at hloader
    exact ⟨hloader ▸ hpath, hloader ▸ hvalid,
      hloader ▸ hlatest.concat hchange⟩

theorem holds_run
    (hload : Loader.load files surroundings explicit = .ok loader)
    (changes : List Change) :
    Holds ⟨files, surroundings, loader⟩ changes := by
  induction changes using List.reverseRecOn with
  | nil =>
      obtain ⟨-, ⟨content, hfound, hsettings⟩, hvalid⟩ :=
        load_eq_ok_iff.mp hload
      refine ⟨rfl, hvalid, ?_⟩
      change Latest _ _ loader.settings
      rw [hsettings]
      exact .loaded hfound (quiet_nil _)
  | append_singleton changes change ih => exact ih.step change

/-- What can be said of a session at any time: besides what is held, how the
next reload ends. -/
structure Reliable (start : Session) (changes : List Change) : Prop extends
    Holds start changes where
  /-- A reload that fails changes nothing. -/
  refused : ¬ (start.run changes).Reloads →
    start.run (changes ++ [.reload]) = start.run changes
  /-- Where a file stands, a reload succeeds when a load would, and then holds
  the same. -/
  alike : (start.run changes).files.exists? start.loader.path = true →
    ∀ loader,
      Loader.load (start.run changes).files (start.run changes).surroundings
          (some start.loader.path) = .ok loader ↔
        (start.run changes).Reloads ∧
          (start.run (changes ++ [.reload])).loader = loader

theorem reliable_run
    (hload : Loader.load files surroundings explicit = .ok loader)
    (changes : List Change) :
    Reliable ⟨files, surroundings, loader⟩ changes := by
  have hholds := holds_run hload changes
  refine { hholds with refused := ?_, alike := ?_ }
  · intro hnot
    rw [run_concat]
    exact step_reload_of_not hnot
  · intro hexists loader
    rw [run_concat]
    rw [← hholds.path] at hexists ⊢
    exact load_eq_ok_iff_reloads hexists

/-- When the file is gone, a reload leaves what is held. -/
theorem loader_of_missing
    (hmissing : files.exists? session.loader.path = false) :
    (session.run [.edit files, .reload]).loader = session.loader := by
  have hrefused : ¬ (session.step (.edit files)).Reloads := by
    rintro ⟨loader, hreload⟩
    have hexists := (reload_eq_ok_iff.mp hreload).1
    exact absurd hexists (ne_true_of_eq_false hmissing)
  have hrun : session.run [.edit files, .reload] =
      (session.step (.edit files)).step .reload := rfl
  rw [hrun, step_reload_of_not hrefused]
  rfl

/-- Nothing but a file for settings, with a text. -/
def settingsFile (text : String) : FileSystem :=
  ⟨[(["quill.toml"], .file text.toUTF8)], []⟩

theorem exists?_settingsFile (text : String) :
    (settingsFile text).exists? "quill.toml" = true := rfl

theorem readText_settingsFile (text : String) :
    (settingsFile text).readText "quill.toml" = .ok text := by
  have hread : (settingsFile text).read "quill.toml" = .ok text.toUTF8 := rfl
  rw [FileSystem.readText, hread, ok_bind, fromUTF8?_toUTF8]

/-- What a file holds that only says which provider to use. -/
def mocked : Settings where
  ai := { AiSettings.default with provider := "mock" }
  skills := StoreSettings.default
  logging := LogSettings.default

/-- The text of such a file. -/
def mockedText : String := "[ai]\nprovider = \"mock\"\n"

theorem ofText_mockedText : Settings.ofText mockedText = .ok mocked := by
  have hread : (Settings.ofText mockedText).toOption = some mocked := by
    decide +kernel
  cases htext : Settings.ofText mockedText with
  | ok settings =>
      rw [htext] at hread
      exact congrArg Except.ok (Option.some.inj hread)
  | error error =>
      rw [htext] at hread
      contradiction

/-- The settings that the file leads to under variables that leave them without
an error or a warning. -/
theorem load_mocked
    (hvalid : (mocked.override surroundings.vars).validate = .ok []) :
    Loader.load (settingsFile mockedText) surroundings (some "quill.toml") =
      .ok ⟨"quill.toml", mocked.override surroundings.vars⟩ := by
  have hcontent : Settings.ofFile (settingsFile mockedText) "quill.toml" =
      .ok mocked := by
    simp only [Settings.ofFile, readText_settingsFile, ofText_mockedText]
  exact load_eq_ok_iff.mpr
    ⟨rfl, ⟨mocked, .file (exists?_settingsFile _) hcontent, rfl⟩, [], hvalid⟩

/-- The file is spoiled, then emptied under a provider without a name, then
written again under a variable that names a model, and at last taken away, with
a reload each time.  Only the third one succeeds, and what it gives is held to
the end. -/
theorem mocked_reliable :
    let bare : Variables := []
    let named : Variables := [("QUILL_AI_MODEL", "large")]
    let blank : Variables := [("QUILL_AI_PROVIDER", " ")]
    let start : Session :=
      ⟨settingsFile mockedText, bare, "quill.toml", mocked⟩
    let before : List Change := [.edit (settingsFile "[ai"), .reload,
      .edit (settingsFile ""), .environment blank, .reload,
      .edit (settingsFile mockedText), .environment named]
    let changes : List Change := before ++ [.reload, .edit .empty, .reload]
    Loader.load start.files start.surroundings (some "quill.toml") =
        .ok start.loader ∧
      start.Reliable changes ∧ (start.run before).Reloads ∧
      (start.run changes).loader = ⟨"quill.toml", mocked.override named⟩ ∧
      mocked.override named ≠ mocked := by
  intro bare named blank start before changes
  have hstart : Loader.load (settingsFile mockedText) ([] : Variables)
      (some "quill.toml") = .ok ⟨"quill.toml", mocked⟩ := load_mocked rfl
  have hnamed : Loader.load (settingsFile mockedText)
      ([("QUILL_AI_MODEL", "large")] : Variables) (some "quill.toml") =
        .ok ⟨"quill.toml", mocked.override named⟩ := load_mocked rfl
  obtain ⟨hreloads, hloader⟩ :=
    ((reliable_run hstart before).alike (exists?_settingsFile _) _).mp hnamed
  have hmissing : FileSystem.exists? .empty
      (start.run (before ++ [.reload])).loader.path = false := by
    rw [hloader]
    decide
  have hchanges : start.run changes =
      (start.run (before ++ [.reload])).run [.edit .empty, .reload] := by
    rw [← run_append, List.append_assoc]
    rfl
  refine ⟨hstart, reliable_run hstart changes, hreloads, ?_, by decide⟩
  rw [hchanges, loader_of_missing hmissing]
  exact hloader

end Session

end Loader

end SkillEngine
