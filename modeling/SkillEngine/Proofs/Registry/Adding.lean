import SkillEngine.Proofs.Dict
import SkillEngine.Proofs.Skill.Validation
import SkillEngine.Registry.Basic

/-!
# Adding what is missing

Skills are added to a registry up to the first that is not valid.  Where all
are valid that is never met, and everything is added whose id is not taken:
`addMissing` says so without the check.  The library is such a list of skills.
-/

namespace SkillEngine

/-! ## The library is valid -/

namespace Text

/-- A text that begins with a letter is not blank. -/
theorem isBlankString_ofList {letter : Char} (hletter : isBlank letter = false)
    (rest : List Char) :
    isBlankString (String.ofList (letter :: rest)) = false := by
  simp [isBlankString, allBlank, hletter]

theorem isBlankString_append {first : String}
    (hfirst : isBlankString first = false) (second : String) :
    isBlankString (first ++ second) = false := by
  simp only [isBlankString, allBlank] at hfirst ⊢
  rw [String.toList_append, List.all_append, hfirst, Bool.false_and]

end Text

theorem Skill.violations_of_prompt {skill : Skill} {prompt : Prompt}
    (hdefinition : skill.definition = .prompt prompt)
    (htemplate : Text.isBlankString prompt.template = false)
    (hown : skill.ownViolations = [])
    (hnames : duplicates [] (skill.parameters.map (·.name)) = []) :
    skill.violations = [] := by
  simp [violations, hown, hnames, hdefinition, Definition.violations, htemplate]

namespace SkillLibrary

theorem nodup_ids : (skills.map (·.id)).Nodup := by
  decide

/-- Every skill of the library is valid, so adding it is never refused. -/
theorem valid : ∀ skill ∈ skills, skill.violations = [] := by
  have hprompts : ∀ skill ∈ writing ++ editing ++ analysis,
      skill.violations = [] := by
    simp only [writing, editing, analysis, List.cons_append, List.nil_append,
      List.forall_mem_cons]
    refine ⟨?_, ?_, ?_, ?_, ?_, ?_, ?_, ?_, ?_, ?_, by simp⟩
    -- Templates are long; the first letter of each says that it is not blank.
    all_goals
      refine Skill.violations_of_prompt rfl ?_ (by decide) (by decide)
      repeat rw [Text.isBlankString_append]
      exact Text.isBlankString_ofList (by decide) _
  have hautomation : ∀ skill ∈ automation, skill.violations = [] := by
    decide
  intro skill hskill
  rcases List.mem_append.mp hskill with hskill | hskill
  · exact hprompts skill hskill
  · exact hautomation skill hskill

end SkillLibrary

namespace Registry

/-! ## Adding what is missing -/

/-- Add all skills whose ids are not taken, and collect the ids that were
added. -/
def addMissing : List Skill → Dict Skill → List String × Dict Skill
  | [], skills => ([], skills)
  | skill :: more, skills =>
    if skills.has skill.id then addMissing more skills
    else
      let (ids, skills) := addMissing more (skills.insert skill.id skill)
      (skill.id :: ids, skills)

section Missing

variable {added : List Skill} {skills : Dict Skill}

/-- What was there stays, and what was not there comes from the added skills. -/
theorem find?_addMissing_eq (id : String) :
    (addMissing added skills).2.find? id =
      (skills.find? id).or (added.find? (·.id == id)) := by
  induction added generalizing skills with
  | nil => simp [addMissing]
  | cons first added ih =>
      rw [addMissing]
      by_cases hid : first.id = id
      · rw [List.find?_cons_of_pos (by simpa using hid)]
        split
        next hhas =>
          obtain ⟨held, hheld⟩ := Dict.has_iff_exists.mp (hid ▸ hhas)
          rw [ih, hheld]
          rfl
        next hnew =>
          have hnone : skills.find? id = none := by
            simpa [Dict.has, hid] using hnew
          rw [ih, ← hid, Dict.find?_insert_self, hid, hnone]
          rfl
      · rw [List.find?_cons_of_neg (by simpa using hid)]
        split
        · exact ih
        · rw [ih, Dict.find?_insert_of_ne (Ne.symm hid)]

/-- Of different ids just those are added that were not there, in their
order. -/
theorem ids_addMissing (hnodup : (added.map (·.id)).Nodup) :
    (addMissing added skills).1 =
      (added.map (·.id)).filter fun id => !skills.has id := by
  induction added generalizing skills with
  | nil => rfl
  | cons first added ih =>
      obtain ⟨hother, hrest⟩ := List.nodup_cons.mp hnodup
      rw [addMissing, List.map_cons]
      split
      next hhas =>
        rw [List.filter_cons_of_neg (by simp [hhas]), ih hrest]
      next hnew =>
        have hsame : ∀ id ∈ added.map (·.id),
            (!(skills.insert first.id first).has id) = !skills.has id := by
          intro id hid
          have hne : id ≠ first.id := by
            rintro rfl
            exact hother hid
          simp [hne]
        have hlater := @ih (skills.insert first.id first) hrest
        rw [List.filter_congr hsame] at hlater
        rw [List.filter_cons_of_pos (by simpa using hnew), ← hlater]

theorem addMissing_of_has (h : ∀ skill ∈ added, skills.has skill.id = true) :
    addMissing added skills = ([], skills) := by
  induction added with
  | nil => rfl
  | cons first added ih =>
      rw [List.forall_mem_cons] at h
      rw [addMissing, if_pos h.1, ih h.2]

theorem addMissing_addMissing :
    addMissing added (addMissing added skills).2 =
      ([], (addMissing added skills).2) := by
  refine addMissing_of_has fun skill hskill => ?_
  have hfound : (added.find? (·.id == skill.id)).isSome := by
    rw [List.find?_isSome]
    exact ⟨skill, hskill, by simp⟩
  rw [Dict.has, find?_addMissing_eq]
  simp [hfound]

theorem forall_insert {P : String → Skill → Prop} {id : String}
    {skill : Skill} (hall : ∀ entry ∈ skills, P entry.1 entry.2)
    (hskill : P id skill) :
    ∀ entry ∈ skills.insert id skill, P entry.1 entry.2 := by
  intro entry hentry
  rcases Dict.mem_of_mem_insert hentry with rfl | hheld
  · exact hskill
  · exact hall entry hheld

theorem forall_addMissing {P : String → Skill → Prop}
    (hall : ∀ entry ∈ skills, P entry.1 entry.2)
    (hadded : ∀ skill ∈ added, P skill.id skill) :
    ∀ entry ∈ (addMissing added skills).2, P entry.1 entry.2 := by
  induction added generalizing skills with
  | nil => exact hall
  | cons first added ih =>
      rw [List.forall_mem_cons] at hadded
      rw [addMissing]
      split
      · exact ih hall hadded.2
      · exact ih (forall_insert hall hadded.1) hadded.2

theorem sorted_addMissing (hsorted : skills.Sorted) :
    (addMissing added skills).2.Sorted := by
  induction added generalizing skills with
  | nil => exact hsorted
  | cons first added ih =>
      rw [addMissing]
      split
      · exact ih hsorted
      · exact ih (hsorted.insert _ _)

/-- Of valid skills none ends the adding. -/
theorem addValid_eq (hvalid : ∀ skill ∈ added, skill.violations = []) :
    addValid added skills =
      (.ok (addMissing added skills).1, (addMissing added skills).2) := by
  induction added generalizing skills with
  | nil => rfl
  | cons first added ih =>
      obtain ⟨hfirst, hrest⟩ := List.forall_mem_cons.mp hvalid
      rw [addValid, addMissing]
      split
      · exact ih hrest
      · rw [hfirst, ih hrest]
        rfl

end Missing

/-- The library is added as a whole: the check of its skills refuses none. -/
theorem registerLibrary_eq (registry : Registry) (files : FileSystem) :
    registry.registerLibrary files =
      let added := addMissing SkillLibrary.skills registry.skills
      if added.1.isEmpty then ⟨.ok [], registry, files⟩
      else persist { registry with skills := added.2 } files added.1 := by
  rw [registerLibrary, addValid_eq SkillLibrary.valid]

end Registry

end SkillEngine
