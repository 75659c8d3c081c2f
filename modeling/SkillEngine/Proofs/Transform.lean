import Mathlib.Algebra.GroupWithZero.Nat
import SkillEngine.Proofs.Text.Pieces
import SkillEngine.Transform

/-!
# Lines of a text

Splitting a text keeps every line, the empty ones included, so joining the
lines gives the text back.  What is split is the text of any value; what is
joined may be any array.  The arrays that come back when they are joined and
split are those that can come from splitting: they have at least one element,
and each of their elements is a text on one line.
-/

namespace SkillEngine

/-- Between each two pieces there is a separator. -/
theorem Text.length_join (separator : Char) (pieces : List (List Char)) :
    (join [separator] pieces).length =
      (pieces.map List.length).sum + (pieces.length - 1) := by
  induction pieces with
  | nil => rfl
  | cons piece pieces ih =>
      by_cases hne : pieces = []
      · subst hne
        simp [join]
      · have hpos : 0 < pieces.length := List.length_pos_iff.mpr hne
        rw [join_cons [separator] piece hne]
        simp only [List.length_append, ih, List.map_cons, List.sum_cons,
          List.length_cons, List.length_nil]
        omega

namespace Transform

/-- The document is an array of at least one text, none of which has a line
feed. -/
def IsLines : Json → Prop
  | .array items => items ≠ [] ∧
    ∀ item ∈ items, ∃ line : String, item = .string line ∧ '\n' ∉ line.toList
  | _ => False

theorem elementForm_string (line : String) :
    elementForm (.string line) = line.toList := by
  simp [elementForm, Json.form]

theorem form_join (items : List Json) :
    (join (.array items)).form =
      Text.join ['\n'] (items.map elementForm) := by
  rw [join, Json.form, String.toList_ofList]

/-! ## Splitting before joining -/

theorem isLines_split (value : Json) : IsLines (split value) := by
  constructor
  · rw [ne_eq, List.map_eq_nil_iff]
    exact Text.cut_ne_nil _ value.form
  · rw [List.forall_mem_map]
    intro line hline
    refine ⟨String.ofList line, rfl, ?_⟩
    rw [String.toList_ofList]
    exact Text.not_mem_of_mem_cutLines hline

theorem join_split (value : Json) :
    join (split value) = .string value.formString := by
  have hforms : ((Text.cutLines value.form).map fun line =>
      Json.string (String.ofList line)).map elementForm =
        Text.cutLines value.form := by
    rw [List.map_map, List.map_congr_left, List.map_id]
    intro line _
    exact (elementForm_string _).trans String.toList_ofList
  rw [split, join, hforms, Json.formString]
  exact congrArg (Json.string ∘ String.ofList) (Text.join_cut '\n' value.form)

/-! ## Joining before splitting -/

theorem split_join_of_isLines {document : Json} (h : IsLines document) :
    split (join document) = document := by
  cases document with
  | array items =>
      obtain ⟨hne, hitems⟩ := h
      have hlines : ∀ line ∈ items.map elementForm, '\n' ∉ line := by
        rw [List.forall_mem_map]
        intro item hitem
        obtain ⟨line, rfl, hline⟩ := hitems item hitem
        rw [elementForm_string]
        exact hline
      have hcut : Text.cutLines (Text.join ['\n'] (items.map elementForm)) =
          items.map elementForm :=
        Text.cut_join (by simpa using hne) hlines
      rw [split, form_join, hcut, List.map_map, List.map_congr_left,
        List.map_id]
      intro item hitem
      obtain ⟨line, rfl, -⟩ := hitems item hitem
      simp [elementForm_string]
  | _ => exact h.elim

theorem split_join_eq_iff {document : Json} :
    split (join document) = document ↔ IsLines document := by
  constructor
  · intro h
    rw [← h]
    exact isLines_split (join document)
  · exact split_join_of_isLines

/-! ## The transforms by name -/

/-- What splitting and joining do to a value, and to the elements of an
array. -/
structure SplitsAndJoins (value : Json) (items : List Json) : Prop where
  /-- The lines of a value, joined, are its text. -/
  joined : apply "join" (apply "split" value) = .string value.formString
  lines : IsLines (apply "split" value)
  /-- Lines come back, and nothing else does. -/
  kept : apply "split" (apply "join" value) = value ↔ IsLines value
  /-- Joining adds a character between each two elements. -/
  length : apply "length" (apply "join" (.array items)) =
    .nat ((items.map fun item => (elementForm item).length).sum +
      (items.length - 1))

theorem split_join_inverse (value : Json) (items : List Json) :
    SplitsAndJoins value items where
  joined := join_split value
  lines := isLines_split value
  kept := split_join_eq_iff
  length := by
    have hlength := Text.length_join '\n' (items.map elementForm)
    rw [← form_join, List.map_map, List.length_map] at hlength
    exact congrArg Json.nat hlength

example : apply "join" (apply "split" (.string "\na\n\nb\n")) =
    .string "\na\n\nb\n" := by cbv

end Transform

end SkillEngine
