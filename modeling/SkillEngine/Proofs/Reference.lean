import SkillEngine.Execution.Step
import SkillEngine.Proofs.Dict
import SkillEngine.Proofs.Template.Filling

/-!
# Two ways to read a name

A step reads the input and the earlier results in two ways.  Slots of a
template are filled from the input with the results put over it, so a result
hides a value of the input; a reference looks in the input first, so there it
is the other way round.  The two agree on a name as long as nothing is hidden:
only one of the two has a value for it, or both have the same.
-/

namespace SkillEngine

variable {input results : Json.Object} {name : String} {value : Json}

namespace Reference

/-- The reference to a name. -/
def mark (name : String) : Json := .string ("$" ++ name)

theorem name?_mark (name : String) : name? (mark name) = some name := by
  simp [mark, name?]

theorem resolve_mark
    (h : find? input results name = some value) :
    resolve (mark name) input results = value := by
  rw [resolve, name?_mark]
  simp [h]

end Reference

/-- A result hides the value that a name has in the input. -/
theorem find?_mergedInput (input : Json.Object) (hnames : results.names.Nodup)
    (name : String) :
    (mergedInput input results).find? name =
      (results.find? name).or (input.find? name) :=
  Dict.find?_insertAll hnames name

namespace Template

variable {data : Json.Object} {slotName : List Char}

/-- Where the slot of a name with a value stands in a template, the filled
text has the text of the value. -/
theorem fillChars_around_value (before : List Char) (h : IsSlotName slotName)
    (after : List Char)
    (hvalue : data.find? (String.ofList slotName) = some value) :
    fillChars (before ++ slotText slotName ++ after) data =
      fillChars before data ++ value.form ++ fillChars after data := by
  rw [fillChars_around_slot before h after]
  simp [fillPiece, hvalue]

theorem fillChars_nil : fillChars [] data = [] := rfl

theorem fill_slot (h : IsSlotName name.toList)
    (hvalue : data.find? name = some value) :
    fill (slot name) data = value.formString := by
  have hfilled : fillChars (slotText name.toList) data = value.form := by
    simpa [fillChars_nil] using
      fillChars_around_value [] h [] (by simpa using hvalue)
  rw [fill, slot, String.toList_ofList, hfilled, Json.formString]

end Template

/-- What a name stands for in a template and as a reference. -/
structure ReadBothWays (input results : Json.Object) (name : String) : Prop where
  /-- Its slot shows the result, if there is one, and else the input. -/
  filled : Template.IsSlotName name.toList → ∀ value,
    (results.find? name).or (input.find? name) = some value →
      Template.fill (Template.slot name) (mergedInput input results) =
        value.formString
  /-- A reference to it denotes the input, if there is one, and else the
  result. -/
  resolved : ∀ value,
    (input.find? name).or (results.find? name) = some value →
      Reference.resolve (Reference.mark name) input results = value
  /-- Both ways lead to the same text when only one of the two has a value for
  the name, or both have the same. -/
  agree : Template.IsSlotName name.toList →
    input.has name = true ∨ results.has name = true →
    (∀ given output, input.find? name = some given →
      results.find? name = some output → given = output) →
      (Reference.resolve (Reference.mark name) input results).formString =
        Template.fill (Template.slot name) (mergedInput input results)

theorem readBothWays (input : Json.Object) (hnames : results.names.Nodup)
    (name : String) : ReadBothWays input results name := by
  have hfilled : Template.IsSlotName name.toList → ∀ value,
      (results.find? name).or (input.find? name) = some value →
        Template.fill (Template.slot name) (mergedInput input results) =
          value.formString := by
    intro hname value hvalue
    apply Template.fill_slot hname
    rwa [find?_mergedInput input hnames]
  have hresolved : ∀ value,
      (input.find? name).or (results.find? name) = some value →
        Reference.resolve (Reference.mark name) input results = value :=
    fun _ hvalue => Reference.resolve_mark hvalue
  refine ⟨hfilled, hresolved, ?_⟩
  intro hname hbound hsame
  obtain ⟨value, hresult, hgiven⟩ : ∃ value,
      (results.find? name).or (input.find? name) = some value ∧
        (input.find? name).or (results.find? name) = some value := by
    cases hgiven : input.find? name with
    | none =>
        have hmissing : input.has name = false := by simp [Dict.has, hgiven]
        obtain ⟨value, hvalue⟩ := Dict.has_iff_exists.mp
          (hbound.resolve_left (by simp [hmissing]))
        exact ⟨value, by simp [hvalue], by simp [hvalue]⟩
    | some given =>
        cases houtput : results.find? name with
        | none => exact ⟨given, by simp, by simp⟩
        | some output =>
            obtain rfl := hsame given output hgiven houtput
            exact ⟨given, by simp, by simp⟩
  rw [hfilled hname value hresult, hresolved value hgiven]

end SkillEngine
