import SkillEngine.Proofs.Registry.Reopening

/-!
# The library in a store

What is assumed of numbers holds of those in the library, and its skills are
not nested deep, so skills of the library that were saved are loaded again.
-/

namespace SkillEngine

namespace SkillLibrary

/-- The numbers in the documents of the library are read from their texts. -/
theorem numbers_readBack :
    ∀ number ∈ skills.flatMap fun skill => (Skill.codec.encode skill).numbers,
      number.ReadsBack := by
  decide +kernel

theorem depth_le : ∀ skill ∈ skills, skill.depth + 2 ≤ Json.nestingLimit := by
  decide

end SkillLibrary

theorem StoreDocument.mem_numbers_ofSkills {skills : List Skill}
    {number : Number} (h : number ∈ (ofSkills skills).numbers) :
    number ∈ skills.flatMap (fun skill => (Skill.codec.encode skill).numbers) ∨
      number = .integer 1 := by
  have hnumbers : (ofSkills skills).numbers =
      Json.numbersOfItems (skills.map Skill.codec.encode) ++ [.integer 1] := rfl
  rw [hnumbers, Json.numbersOfItems_eq_flatMap, List.flatMap_map,
    List.mem_append, List.mem_singleton] at h
  exact h

/-- Skills of the library that were saved are loaded, up to what is lost of
them on the way. -/
theorem Store.load_library {store : Store} {files saved : FileSystem}
    {skills : List Skill}
    (hsave : store.save skills files = (.ok (), saved))
    (hskills : ∀ skill ∈ skills, skill ∈ SkillLibrary.skills) :
    store.load saved = .ok (skills.map Skill.recovered) := by
  obtain ⟨hexists, htext⟩ := text_of_save hsave
  have hback : ∀ number ∈ (StoreDocument.ofSkills skills).numbers,
      number.ReadsBack := by
    intro number hnumber
    rcases StoreDocument.mem_numbers_ofSkills hnumber with hnumber | rfl
    · obtain ⟨skill, hskill, hnumber⟩ := List.mem_flatMap.mp hnumber
      exact SkillLibrary.numbers_readBack number
        (List.mem_flatMap.mpr ⟨skill, hskills skill hskill, hnumber⟩)
    · decide
  have hdepth := (StoreDocument.depth_le_nestingLimit_iff skills).mpr
    fun skill hskill => SkillLibrary.depth_le skill (hskills skill hskill)
  rw [load_eq_of_text hexists htext
    (fun skill hskill => SkillLibrary.canonical skill (hskills skill hskill))
    hback, if_pos hdepth]

end SkillEngine
