import SkillEngine.Proofs.Skill.Parameters

/-!
# Filling in defaults

The parameters are gone through one after another, and each looks at an input
into which those before it may have put their defaults.  When their names differ
this makes no difference: every parameter finds under its name what was given.
So the check ends at the first parameter that lacks a value in the given input,
and what is filled in can be said at once, as the entries of the parameters that
were not given and have a default.  Entries under different names can be made in
any order.
-/

namespace SkillEngine

/-- The parameter is required and has no default, and nothing is given for it. -/
structure Parameter.Lacking (parameter : Parameter) (input : Json.Object) :
    Prop where
  required : parameter.required = true
  default : parameter.default = none
  missing : input.find? parameter.name = none ∨
    input.find? parameter.name = some .null

/-- The entry that a parameter makes: its default, where nothing is given. -/
def Parameter.entry? (input : Json.Object) (parameter : Parameter) :
    Option (String × Json) :=
  if isGiven (input.find? parameter.name) then none
  else parameter.default.map fun value => (parameter.name, value)

/-- The entries that the parameters make. -/
def defaultEntries (parameters : List Parameter) (input : Json.Object) :
    List (String × Json) :=
  parameters.filterMap (Parameter.entry? input)

variable {parameters : List Parameter} {input : Json.Object}

theorem requiredGiven_iff :
    RequiredGiven parameters input ↔
      ∀ parameter ∈ parameters, ¬parameter.Lacking input := by
  constructor
  · rintro h parameter hmem ⟨hrequired, hdefault, hmissing⟩
    rw [← isGiven_eq_false_iff, h parameter hmem hrequired hdefault] at hmissing
    contradiction
  · intro h parameter hmem hrequired hdefault
    by_contra hgiven
    have hmissing := Bool.eq_false_of_not_eq_true hgiven
    exact h parameter hmem
      ⟨hrequired, hdefault, isGiven_eq_false_iff.mp hmissing⟩

/-! ## The entries that are made -/

theorem mem_defaultEntries_iff {entry : String × Json} :
    entry ∈ defaultEntries parameters input ↔
      ∃ parameter ∈ parameters, parameter.name = entry.1 ∧
        parameter.default = some entry.2 ∧
        (input.find? entry.1 = none ∨ input.find? entry.1 = some .null) := by
  rw [← isGiven_eq_false_iff]
  rw [defaultEntries, List.mem_filterMap]
  refine exists_congr fun parameter => and_congr_right fun _ => ?_
  rw [Parameter.entry?]
  by_cases hgiven : isGiven (input.find? parameter.name) = true
  · rw [if_pos hgiven]
    constructor
    · intro hnone
      contradiction
    · rintro ⟨hname, -, hmissing⟩
      rw [← hname, hgiven] at hmissing
      contradiction
  · rw [if_neg hgiven, Option.map_eq_some_iff]
    constructor
    · rintro ⟨value, hdefault, rfl⟩
      exact ⟨rfl, hdefault, Bool.eq_false_of_not_eq_true hgiven⟩
    · rintro ⟨hname, hdefault, -⟩
      exact ⟨entry.2, hdefault, Prod.ext hname rfl⟩

theorem names_defaultEntries (parameters : List Parameter)
    (input : Json.Object) :
    ((defaultEntries parameters input).map (·.1)).Sublist
      (parameters.map (·.name)) := by
  induction parameters with
  | nil => exact .slnil
  | cons parameter parameters ih =>
      rw [defaultEntries, List.filterMap_cons, List.map_cons]
      split
      · exact ih.cons _
      next entry hentry =>
        have hname : entry.1 = parameter.name := by
          rw [Parameter.entry?] at hentry
          split at hentry
          · contradiction
          · obtain ⟨value, -, rfl⟩ := Option.map_eq_some_iff.mp hentry
            rfl
        rw [List.map_cons, hname]
        exact ih.cons_cons _

/-- An entry under a name that no parameter has changes nothing for them. -/
theorem defaultEntries_insert {name : String}
    (hnew : name ∉ parameters.map (·.name)) (value : Json) :
    defaultEntries parameters (input.insert name value) =
      defaultEntries parameters input := by
  refine List.filterMap_congr fun parameter hmem => ?_
  have hne : parameter.name ≠ name := by
    rintro rfl
    exact hnew (List.mem_map_of_mem hmem)
  rw [Parameter.entry?, Parameter.entry?, Dict.find?_insert_of_ne hne]

/-! ## What the parameters come to -/

section Turns

variable {parameter : Parameter} (later : List Parameter)
  (hmissing : isGiven (input.find? parameter.name) = false)

include hmissing

theorem applyParameters_of_default {value : Json}
    (hdefault : parameter.default = some value) :
    applyParameters (parameter :: later) input =
      applyParameters later (input.insert parameter.name value) := by
  simp only [applyParameters, hmissing, hdefault, Bool.false_eq_true, if_false]

theorem applyParameters_of_optional (hdefault : parameter.default = none)
    (hoptional : parameter.required = false) :
    applyParameters (parameter :: later) input =
      applyParameters later input := by
  simp only [applyParameters, hmissing, hdefault, hoptional,
    Bool.false_eq_true, if_false]

theorem applyParameters_of_required (hdefault : parameter.default = none)
    (hrequired : parameter.required = true) :
    applyParameters (parameter :: later) input =
      (.error (.missingParameter parameter.name), input) := by
  simp only [applyParameters, hmissing, hdefault, hrequired,
    Bool.false_eq_true, if_false, if_true]

end Turns

/-- Parameters that pass leave the input that they filled in to the others. -/
theorem applyParameters_append {earlier : List Parameter}
    (later : List Parameter)
    (hok : (applyParameters earlier input).1 = .ok ()) :
    applyParameters (earlier ++ later) input =
      applyParameters later (applyParameters earlier input).2 := by
  induction earlier generalizing input with
  | nil => rfl
  | cons parameter earlier ih =>
      rw [List.cons_append]
      by_cases hgiven : isGiven (input.find? parameter.name) = true
      · rw [applyParameters_of_given hgiven] at hok ⊢
        rw [applyParameters_of_given hgiven]
        exact ih hok
      · have hmissing := Bool.eq_false_of_not_eq_true hgiven
        cases hdefault : parameter.default with
        | some value =>
            rw [applyParameters_of_default _ hmissing hdefault] at hok ⊢
            rw [applyParameters_of_default _ hmissing hdefault]
            exact ih hok
        | none =>
            by_cases hrequired : parameter.required = true
            · rw [applyParameters_of_required _ hmissing hdefault hrequired]
                at hok
              contradiction
            · have hoptional := Bool.eq_false_of_not_eq_true hrequired
              rw [applyParameters_of_optional _ hmissing hdefault hoptional]
                at hok ⊢
              rw [applyParameters_of_optional _ hmissing hdefault hoptional]
              exact ih hok

/-- When no parameter lacks a value, all entries are made. -/
theorem applyParameters_of_requiredGiven
    (hnodup : (parameters.map (·.name)).Nodup)
    (hgiven : RequiredGiven parameters input) :
    applyParameters parameters input =
      (.ok (), input.insertAll (defaultEntries parameters input)) := by
  induction parameters generalizing input with
  | nil => rfl
  | cons parameter parameters ih =>
      obtain ⟨hnew, hrest⟩ := List.nodup_cons.mp hnodup
      obtain ⟨hfirst, hothers⟩ := requiredGiven_cons.mp hgiven
      rw [defaultEntries, List.filterMap_cons, Parameter.entry?]
      by_cases hhas : isGiven (input.find? parameter.name) = true
      · rw [applyParameters_of_given hhas, if_pos hhas]
        exact ih hrest hothers
      · have hmissing := Bool.eq_false_of_not_eq_true hhas
        rw [if_neg hhas]
        cases hdefault : parameter.default with
        | some value =>
            have hstep := ih hrest
              ((requiredGiven_insert hnew input value).mpr hothers)
            rw [defaultEntries_insert hnew] at hstep
            rw [applyParameters_of_default _ hmissing hdefault]
            exact hstep
        | none =>
            have hoptional : parameter.required = false :=
              Bool.eq_false_of_not_eq_true fun hrequired =>
                hhas (hfirst hrequired hdefault)
            rw [applyParameters_of_optional _ hmissing hdefault hoptional]
            exact ih hrest hothers

/-- The first parameter that lacks a value ends the check. -/
theorem applyParameters_of_lacking {earlier later : List Parameter}
    {parameter : Parameter}
    (hnodup : ((earlier ++ parameter :: later).map (·.name)).Nodup)
    (hgiven : RequiredGiven earlier input)
    (hlacking : parameter.Lacking input) :
    applyParameters (earlier ++ parameter :: later) input =
      (.error (.missingParameter parameter.name),
        (applyParameters earlier input).2) := by
  rw [List.map_append, List.map_cons] at hnodup
  obtain ⟨hearlier, -, hapart⟩ := List.nodup_append.mp hnodup
  have hnew : parameter.name ∉ earlier.map (·.name) := fun hmem =>
    hapart _ hmem _ List.mem_cons_self rfl
  have hok := (applyParameters_eq_ok_iff hearlier).mpr hgiven
  have hmissing : isGiven ((applyParameters earlier input).2.find?
      parameter.name) = false := by
    rw [find?_applyParameters hnew]
    exact isGiven_eq_false_iff.mpr hlacking.missing
  rw [applyParameters_append _ hok]
  exact applyParameters_of_required later hmissing hlacking.default
    hlacking.required

theorem exists_first_lacking (h : ¬RequiredGiven parameters input) :
    ∃ earlier parameter later, parameters = earlier ++ parameter :: later ∧
      RequiredGiven earlier input ∧ parameter.Lacking input := by
  classical
  rw [requiredGiven_iff] at h
  push Not at h
  obtain ⟨held, hheld, hlacking⟩ := h
  have hsome : (parameters.find? fun parameter =>
      decide (parameter.Lacking input)).isSome = true := by
    rw [List.find?_isSome]
    exact ⟨held, hheld, decide_eq_true hlacking⟩
  obtain ⟨parameter, hfound⟩ := Option.isSome_iff_exists.mp hsome
  obtain ⟨hfirst, earlier, later, rfl, hearlier⟩ :=
    List.find?_eq_some_iff_append.mp hfound
  refine ⟨earlier, parameter, later, rfl, ?_, of_decide_eq_true hfirst⟩
  rw [requiredGiven_iff]
  intro other hother hlacks
  simpa [hlacks] using hearlier other hother

/-! ## The filled input -/

/-- What the parameters make of an input: whether they pass, and the input as
they leave it. -/
structure FillsGaps (parameters : List Parameter) (input : Json.Object)
    (outcome : Except Failure Unit) (filled : Json.Object) : Prop where
  /-- They pass when everything is given that is required and has no default. -/
  passes_iff : outcome = .ok () ↔
    ∀ parameter ∈ parameters, parameter.required = true →
      parameter.default = none →
        ∃ value, input.find? parameter.name = some value ∧ value ≠ .null
  /-- Defaults come where nothing is given. -/
  gained : outcome = .ok () → ∀ parameter ∈ parameters, ∀ value,
    parameter.default = some value →
      (input.find? parameter.name = none ∨
        input.find? parameter.name = some .null) →
        filled.find? parameter.name = some value
  /-- Under every other name the input stays. -/
  kept : outcome = .ok () → ∀ name,
    (∀ parameter ∈ parameters, parameter.name = name →
      parameter.default = none ∨
        ∃ value, input.find? name = some value ∧ value ≠ .null) →
      filled.find? name = input.find? name
  /-- They pass in every order or in none, and fill in the same. -/
  reordered : ∀ other, other.Perm parameters →
    (outcome = .ok () → applyParameters other input = (.ok (), filled)) ∧
      ((applyParameters other input).1 = .ok () → outcome = .ok ())
  /-- A second time they do the same and change nothing. -/
  again : applyParameters parameters filled = (outcome, filled)
  /-- When they do not pass, the first of them is named that lacks a value.
  Those before it have filled in what they could. -/
  refused : ∀ failure, outcome = .error failure →
    ∃ earlier parameter later, parameters = earlier ++ parameter :: later ∧
      failure = .missingParameter parameter.name ∧
      parameter.Lacking input ∧ (∀ other ∈ earlier, ¬other.Lacking input) ∧
      applyParameters earlier input = (.ok (), filled)

theorem isGiven_iff {found : Option Json} :
    isGiven found = true ↔ ∃ value, found = some value ∧ value ≠ .null := by
  rw [← Bool.not_eq_false, isGiven_eq_false_iff]
  cases found with
  | none => simp
  | some value => simp

section Filled

variable (hnodup : (parameters.map (·.name)).Nodup)

include hnodup

theorem find?_filled (hgiven : RequiredGiven parameters input) (name : String) :
    (applyParameters parameters input).2.find? name =
      (Dict.find? (defaultEntries parameters input) name).or
        (input.find? name) := by
  rw [applyParameters_of_requiredGiven hnodup hgiven]
  exact Dict.find?_insertAll
    (hnodup.sublist (names_defaultEntries parameters input)) name

theorem applyParameters_of_perm (hgiven : RequiredGiven parameters input)
    {other : List Parameter} (horder : other.Perm parameters) :
    applyParameters other input = applyParameters parameters input := by
  have hother : (other.map (·.name)).Nodup :=
    (horder.map _).nodup_iff.mpr hnodup
  have hsame : RequiredGiven other input := fun parameter hmem =>
    hgiven parameter (horder.mem_iff.mp hmem)
  rw [applyParameters_of_requiredGiven hnodup hgiven,
    applyParameters_of_requiredGiven hother hsame]
  have hentries := horder.filterMap (Parameter.entry? input)
  have hnames := hother.sublist (names_defaultEntries other input)
  exact congrArg _ (Dict.insertAll_of_perm hentries hnames input)

/-- Parameters with different names fill the gaps of every input. -/
theorem applyParameters_fills_gaps (input : Json.Object) :
    let filled := applyParameters parameters input
    FillsGaps parameters input filled.1 filled.2 := by
  intro filled
  have hpasses : filled.1 = .ok () ↔ RequiredGiven parameters input :=
    applyParameters_eq_ok_iff hnodup
  constructor
  case passes_iff =>
    rw [hpasses]
    refine forall₂_congr fun parameter _ => ?_
    rw [isGiven_iff]
  case gained =>
    intro hok parameter hmem value hdefault hmissing
    have hentry : (parameter.name, value) ∈ defaultEntries parameters input :=
      mem_defaultEntries_iff.mpr ⟨parameter, hmem, rfl, hdefault, hmissing⟩
    have hnames := hnodup.sublist (names_defaultEntries parameters input)
    rw [find?_filled hnodup (hpasses.mp hok),
      (Dict.find?_eq_some_iff hnames).mpr hentry, Option.some_or]
  case kept =>
    intro hok name hkept
    have hnone : Dict.find? (defaultEntries parameters input) name = none := by
      by_contra hsome
      obtain ⟨value, hvalue⟩ := Option.ne_none_iff_exists'.mp hsome
      obtain ⟨parameter, hmem, hname, hdefault, hmissing⟩ :=
        mem_defaultEntries_iff.mp (Dict.mem_of_find? hvalue)
      rcases hkept parameter hmem hname with hnodefault | hgiven
      · rw [hdefault] at hnodefault
        contradiction
      · rw [← isGiven_iff] at hgiven
        rw [← isGiven_eq_false_iff, hgiven] at hmissing
        contradiction
    rw [find?_filled hnodup (hpasses.mp hok), hnone, Option.none_or]
  case reordered =>
    intro other horder
    constructor
    · intro hok
      rw [applyParameters_of_perm hnodup (hpasses.mp hok) horder, ← hok]
    · intro hok
      have hother : (other.map (·.name)).Nodup :=
        (horder.map _).nodup_iff.mpr hnodup
      have hgiven := (applyParameters_eq_ok_iff hother).mp hok
      exact hpasses.mpr fun parameter hmem =>
        hgiven parameter (horder.mem_iff.mpr hmem)
  case again => exact applyParameters_applyParameters hnodup input
  case refused =>
    intro failure hfailed
    have hlacks : ¬RequiredGiven parameters input := by
      rw [← hpasses, hfailed]
      simp
    obtain ⟨earlier, parameter, later, rfl, hgiven, hlacking⟩ :=
      exists_first_lacking hlacks
    have hended : filled = (.error (.missingParameter parameter.name),
        (applyParameters earlier input).2) :=
      applyParameters_of_lacking hnodup hgiven hlacking
    refine ⟨earlier, parameter, later, rfl, ?_, hlacking,
      requiredGiven_iff.mp hgiven, ?_⟩
    · rw [hended] at hfailed
      exact (Except.error.inj hfailed).symm
    · have hearlier : (earlier.map (·.name)).Nodup :=
        hnodup.sublist ((List.sublist_append_left _ _).map _)
      rw [hended, ← (applyParameters_eq_ok_iff hearlier).mpr hgiven]

end Filled

/-- A null counts as a gap, and what no parameter declares is left alone. -/
theorem topic_fills_gaps :
    let topic : Parameter :=
      ⟨"topic", "What about", .string, true, none, none, none⟩
    let style : Parameter :=
      ⟨"style", "How", .string, false, some (.string "general"), none, none⟩
    let note : Parameter := ⟨"note", "", .string, false, none, none, none⟩
    let input : Json.Object :=
      [("note", .null), ("other", .nat 1), ("style", .null),
        ("topic", .string "rain")]
    let filled : Json.Object :=
      [("note", .null), ("other", .nat 1), ("style", .string "general"),
        ("topic", .string "rain")]
    ([topic, style, note].map (·.name)).Nodup ∧
      applyParameters [topic, style, note] input = (.ok (), filled) ∧
      FillsGaps [topic, style, note] input (.ok ()) filled := by
  intro topic style note input filled
  have hnodup : ([topic, style, note].map (·.name)).Nodup := by decide
  have hfilled :
      applyParameters [topic, style, note] input = (.ok (), filled) := by
    have hnote : ¬ "style" < "note" := by decide
    have hother : ¬ "style" < "other" := by decide
    simp [applyParameters, isGiven, Json.isNull, Dict.find?_cons, Dict.insert,
      hnote, hother, topic, style, note, input, filled]
  have hfills := applyParameters_fills_gaps hnodup input
  rw [hfilled] at hfills
  exact ⟨hnodup, hfilled, hfills⟩

end SkillEngine
