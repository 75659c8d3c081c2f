import Mathlib.Data.List.Nodup
import SkillEngine.Execution.Engine
import SkillEngine.Proofs.Dict
import SkillEngine.Proofs.Skill.Validation

/-!
# Parameters of a valid skill

The parameters of a valid skill have different names, so a default that is
filled in for one of them never stands in for another.  Hence the check of the
parameters is about the input as it was given.
-/

namespace SkillEngine

theorem duplicates_eq_nil {seen names : List String} :
    duplicates seen names = [] ↔
      names.Nodup ∧ ∀ name ∈ names, name ∉ seen := by
  induction names generalizing seen with
  | nil => simp [duplicates]
  | cons name names ih =>
      by_cases hseen : name ∈ seen
      · simp [duplicates, hseen]
      · rw [duplicates, if_neg hseen, ih, List.nodup_cons]
        constructor
        · rintro ⟨hnodup, hnew⟩
          have hother : name ∉ names := by
            intro hmem
            exact hnew name hmem List.mem_cons_self
          refine ⟨⟨hother, hnodup⟩, ?_⟩
          intro other hmem
          rcases List.mem_cons.mp hmem with rfl | hmem
          · exact hseen
          · exact fun h => hnew other hmem (List.mem_cons_of_mem _ h)
        · rintro ⟨⟨hother, hnodup⟩, hnew⟩
          refine ⟨hnodup, ?_⟩
          intro other hmem hin
          rcases List.mem_cons.mp hin with rfl | hin
          · exact hother hmem
          · exact hnew other (List.mem_cons_of_mem _ hmem) hin

theorem Skill.nodup_parameters {skill : Skill} (hvalid : skill.validate = []) :
    (skill.parameters.map (·.name)).Nodup := by
  have hall := Skill.validate_eq_nil.mp hvalid
  simp only [Skill.violations, List.append_eq_nil_iff,
    List.map_eq_nil_iff] at hall
  exact (duplicates_eq_nil.mp hall.2).1

theorem isGiven_eq_false_iff {found : Option Json} :
    isGiven found = false ↔ found = none ∨ found = some .null := by
  cases found with
  | none => simp [isGiven]
  | some value => cases value <;> simp [isGiven, Json.isNull]

/-- Every parameter that is required and has no default is given. -/
def RequiredGiven (parameters : List Parameter) (input : Json.Object) : Prop :=
  ∀ parameter ∈ parameters, parameter.required = true →
    parameter.default = none →
      isGiven (input.find? parameter.name) = true

/-- An entry under a name that no parameter has makes no difference. -/
theorem requiredGiven_insert {parameters : List Parameter} {name : String}
    (hnew : name ∉ parameters.map (·.name)) (input : Json.Object)
    (value : Json) :
    RequiredGiven parameters (input.insert name value) ↔
      RequiredGiven parameters input := by
  have hsame : ∀ parameter ∈ parameters,
      (input.insert name value).find? parameter.name =
        input.find? parameter.name := by
    intro parameter hmem
    apply Dict.find?_insert_of_ne
    rintro rfl
    exact hnew (List.mem_map_of_mem hmem)
  constructor
  · intro h parameter hmem hrequired hdefault
    rw [← hsame parameter hmem]
    exact h parameter hmem hrequired hdefault
  · intro h parameter hmem hrequired hdefault
    rw [hsame parameter hmem]
    exact h parameter hmem hrequired hdefault

theorem requiredGiven_cons {parameter : Parameter}
    {parameters : List Parameter} {input : Json.Object} :
    RequiredGiven (parameter :: parameters) input ↔
      (parameter.required = true → parameter.default = none →
        isGiven (input.find? parameter.name) = true) ∧
      RequiredGiven parameters input := by
  simp [RequiredGiven]

/-- The check of the parameters passes when the required ones are given. -/
theorem applyParameters_eq_ok_iff {parameters : List Parameter}
    (hnodup : (parameters.map (·.name)).Nodup) {input : Json.Object} :
    (applyParameters parameters input).1 = .ok () ↔
      RequiredGiven parameters input := by
  induction parameters generalizing input with
  | nil => simp [applyParameters, RequiredGiven]
  | cons parameter parameters ih =>
      obtain ⟨hnew, hrest⟩ := List.nodup_cons.mp hnodup
      rw [applyParameters, requiredGiven_cons]
      by_cases hgiven : isGiven (input.find? parameter.name) = true
      · simp [hgiven, ih hrest]
      · rw [if_neg hgiven]
        cases hdefault : parameter.default with
        | some value => simp [ih hrest, requiredGiven_insert hnew]
        | none =>
            cases hrequired : parameter.required with
            | true => simp [hgiven]
            | false => simp [ih hrest]

/-! ## Filling in twice -/

theorem find?_applyParameters {parameters : List Parameter} {name : String}
    (hnew : name ∉ parameters.map (·.name)) (input : Json.Object) :
    (applyParameters parameters input).2.find? name = input.find? name := by
  induction parameters generalizing input with
  | nil => rfl
  | cons parameter parameters ih =>
      have hne : name ≠ parameter.name := by
        rintro rfl
        exact hnew List.mem_cons_self
      have hrest := fun hmem => hnew (List.mem_cons_of_mem _ hmem)
      rw [applyParameters]
      split
      · exact ih hrest input
      · split
        next value _ =>
          rw [ih hrest, Dict.find?_insert_of_ne hne]
        next =>
          split
          · rfl
          · exact ih hrest input

/-- An entry under a name that no parameter has can be made afterwards. -/
theorem applyParameters_insert {parameters : List Parameter} {name : String}
    (hnew : name ∉ parameters.map (·.name)) (input : Json.Object)
    (value : Json) :
    let filled := applyParameters parameters input
    applyParameters parameters (input.insert name value) =
      (filled.1, filled.2.insert name value) := by
  induction parameters generalizing input with
  | nil => rfl
  | cons parameter parameters ih =>
      have hne : parameter.name ≠ name := by
        rintro rfl
        exact hnew List.mem_cons_self
      have hrest := fun hmem => hnew (List.mem_cons_of_mem _ hmem)
      simp only [applyParameters, Dict.find?_insert_of_ne hne]
      split
      · exact ih hrest input
      · split
        next default _ =>
          rw [Dict.insert_comm (Ne.symm hne)]
          exact ih hrest _
        next =>
          split
          · rfl
          · exact ih hrest input

theorem applyParameters_of_given {parameter : Parameter} {input : Json.Object}
    (h : isGiven (input.find? parameter.name) = true)
    (parameters : List Parameter) :
    applyParameters (parameter :: parameters) input =
      applyParameters parameters input := by
  rw [applyParameters, if_pos h]

/-- What was filled in once needs nothing more. -/
theorem applyParameters_applyParameters {parameters : List Parameter}
    (hnodup : (parameters.map (·.name)).Nodup) (input : Json.Object) :
    applyParameters parameters (applyParameters parameters input).2 =
      applyParameters parameters input := by
  induction parameters generalizing input with
  | nil => rfl
  | cons parameter parameters ih =>
      obtain ⟨hnew, hrest⟩ := List.nodup_cons.mp hnodup
      have hfound := fun input => find?_applyParameters hnew input
      by_cases hgiven : isGiven (input.find? parameter.name) = true
      · rw [applyParameters_of_given hgiven, applyParameters_of_given, ih hrest]
        rw [hfound]
        exact hgiven
      · cases hdefault : parameter.default with
        | some value =>
            have hfirst : applyParameters (parameter :: parameters) input =
                applyParameters parameters
                  (input.insert parameter.name value) := by
              rw [applyParameters, if_neg hgiven, hdefault]
            rw [hfirst]
            by_cases hvalue : isGiven (some value) = true
            · rw [applyParameters_of_given, ih hrest]
              rw [hfound, Dict.find?_insert_self]
              exact hvalue
            · -- The default is null, so it is filled in again.
              rw [applyParameters, hfound, Dict.find?_insert_self,
                if_neg hvalue, hdefault]
              dsimp only
              rw [applyParameters_insert hnew, ih hrest,
                ← applyParameters_insert hnew, Dict.insert_insert]
        | none =>
            cases hrequired : parameter.required with
            | true => simp [applyParameters, hgiven, hdefault, hrequired]
            | false =>
                simp [applyParameters, hgiven, hdefault, hrequired, hfound,
                  ih hrest]

end SkillEngine
