import Mathlib.Logic.Relation
import SkillEngine.Proofs.Json.Basic
import SkillEngine.Proofs.Text.Pieces
import SkillEngine.Transform

/-!
# The text of an array

The text of an array is that of its elements with commas between them, and an
element that is an array is shown in the same way.  The commas look alike at
every level, so the text does not tell how the elements are nested: an array
with elements can be replaced by them, wherever it stands, and in the end only
leaves are left.  What keeps a level apart is an array without elements, which
leaves an empty piece like a null does, and nothing where it is the whole value.
-/

namespace SkillEngine.Json

/-! ## Leaves -/

/-- The value is one piece in the text of an array: it is no array, or an array
without elements. -/
def IsLeaf : Json → Prop
  | array items => items = []
  | _ => True

/-- The text of a leaf among others. -/
def leafText : Json → List Char
  | null => []
  | array [] => []
  | leaf => leaf.form

mutual

/-- The leaves of a value, from left to right. -/
def leaves : Json → List Json
  | array items => if items.isEmpty then [array items] else leavesOf items
  | leaf => [leaf]

/-- The leaves of values that follow one another. -/
def leavesOf : List Json → List Json
  | [] => []
  | item :: items => leaves item ++ leavesOf items

end

theorem leaves_array {items : List Json} (hne : items ≠ []) :
    leaves (array items) = leavesOf items := by
  rw [leaves, if_neg (by simpa using hne)]

theorem leavesOf_eq_flatMap (items : List Json) :
    leavesOf items = items.flatMap leaves := by
  induction items with
  | nil => rfl
  | cons item items ih => rw [leavesOf, ih, List.flatMap_cons]

theorem isLeaf_of_mem_leaves {document leaf : Json}
    (h : leaf ∈ leaves document) : leaf.IsLeaf := by
  induction document with
  | array items ih =>
      by_cases hne : items = []
      · subst hne
        obtain rfl : leaf = array [] := by simpa [leaves] using h
        rfl
      · rw [leaves_array hne, leavesOf_eq_flatMap] at h
        obtain ⟨item, hitem, hleaf⟩ := List.mem_flatMap.mp h
        exact ih item hitem hleaf
  | _ =>
      rw [leaves] at h
      · obtain rfl := List.mem_singleton.mp h
        trivial
      · simp

theorem isLeaf_of_mem_leavesOf {items : List Json} {leaf : Json}
    (h : leaf ∈ leavesOf items) : leaf.IsLeaf := by
  rw [leavesOf_eq_flatMap] at h
  obtain ⟨item, -, hleaf⟩ := List.mem_flatMap.mp h
  exact isLeaf_of_mem_leaves hleaf

/-! ## Texts of elements -/

theorem itemForms_eq_map (items : List Json) :
    itemForms items = items.map Transform.elementForm := by
  induction items with
  | nil => rfl
  | cons item items ih =>
      cases item with
      | null => simp [itemForms, Transform.elementForm, ih]
      | _ => simp [itemForms, Transform.elementForm, ih]

theorem form_array (items : List Json) :
    (array items).form = Text.join [','] (items.map Transform.elementForm) := by
  rw [form, itemForms_eq_map]

theorem elementForm_of_isLeaf {leaf : Json} (h : leaf.IsLeaf) :
    Transform.elementForm leaf = leafText leaf := by
  cases leaf with
  | array items =>
      obtain rfl : items = [] := h
      rfl
  | _ => rfl

theorem form_of_leaves {items : List Json} (h : ∀ item ∈ items, item.IsLeaf) :
    (array items).form = Text.join [','] (items.map leafText) := by
  have htexts : items.map Transform.elementForm = items.map leafText :=
    List.map_congr_left fun item hitem => elementForm_of_isLeaf (h item hitem)
  rw [form_array, htexts]

theorem form_append {items others : List Json} (hitems : items ≠ [])
    (hothers : others ≠ []) :
    (array (items ++ others)).form =
      (array items).form ++ [','] ++ (array others).form := by
  rw [form_array, form_array, form_array, List.map_append]
  exact Text.join_append [','] (by simpa using hitems) (by simpa using hothers)

/-! ## Replacing an array by its elements -/

/-- One array with elements, at any depth, is replaced by its elements in
place. -/
inductive Unnests : List Json → List Json → Prop where
  | here (before : List Json) {inner : List Json} (hinner : inner ≠ [])
      (after : List Json) :
      Unnests (before ++ array inner :: after) (before ++ inner ++ after)
  | inside (before : List Json) {inner others : List Json}
      (hinner : Unnests inner others) (after : List Json) :
      Unnests (before ++ array inner :: after) (before ++ array others :: after)

variable {items others : List Json}

/-- Elements around the place do not matter. -/
theorem Unnests.around (h : Unnests items others) (before after : List Json) :
    Unnests (before ++ items ++ after) (before ++ others ++ after) := by
  cases h with
  | here front hinner back =>
      have hstep := Unnests.here (before ++ front) hinner (back ++ after)
      simpa only [List.append_assoc, List.cons_append] using hstep
  | inside front hinner back =>
      have hstep := Unnests.inside (before ++ front) hinner (back ++ after)
      simpa only [List.append_assoc, List.cons_append] using hstep

theorem unnests_around
    (h : Relation.ReflTransGen Unnests items others)
    (before after : List Json) :
    Relation.ReflTransGen Unnests (before ++ items ++ after)
      (before ++ others ++ after) :=
  h.lift (fun middle => before ++ middle ++ after) fun _ _ hstep =>
    hstep.around before after

/-- The text stays as it is. -/
theorem Unnests.form_eq (h : Unnests items others) :
    (array others).form = (array items).form := by
  induction h with
  | here before hinner after =>
      simp only [form_array, List.map_append, List.map_cons]
      rw [Transform.elementForm, form_array]
      · exact (Text.join_join [','] _ (by simpa using hinner) _).symm
      · simp
  | inside before hinner after ih =>
      simp only [form_array, List.map_append, List.map_cons]
      rw [Transform.elementForm, Transform.elementForm, ih]
      · simp
      · simp

theorem form_of_unnests (h : Relation.ReflTransGen Unnests items others) :
    (array others).form = (array items).form := by
  induction h with
  | refl => rfl
  | tail _ hstep ih => exact hstep.form_eq.trans ih

/-- Elements that can be replaced by their leaves one by one can be so
together. -/
theorem unnests_leavesOf
    (h : ∀ item ∈ items,
      Relation.ReflTransGen Unnests [item] (leaves item)) :
    Relation.ReflTransGen Unnests items (leavesOf items) := by
  induction items with
  | nil => exact .refl
  | cons item items ih =>
      obtain ⟨hitem, hitems⟩ := List.forall_mem_cons.mp h
      have hfirst := unnests_around hitem [] items
      have hrest := unnests_around (ih hitems) (leaves item) []
      simp only [List.nil_append, List.append_nil, List.singleton_append]
        at hfirst hrest
      exact hfirst.trans hrest

/-- A value comes down to its leaves. -/
theorem unnests_leaves (document : Json) :
    Relation.ReflTransGen Unnests [document] (leaves document) := by
  induction document with
  | array items ih =>
      by_cases hne : items = []
      · subst hne
        exact .refl
      · have hstep : Unnests [array items] items := by
          simpa using Unnests.here [] hne []
        rw [leaves_array hne]
        exact .head hstep (unnests_leavesOf ih)
  | _ => exact .refl

/-! ## Arrays and their leaves -/

/-- The text of an array depends on its leaves only. -/
structure ShownByLeaves (items : List Json) : Prop where
  /-- The leaves are shown from left to right. -/
  joined : (array items).form = Text.join [','] ((leavesOf items).map leafText)
  isLeaf : ∀ leaf ∈ leavesOf items, leaf.IsLeaf
  /-- They are what is left when arrays are replaced by their elements. -/
  flattened : Relation.ReflTransGen Unnests items (leavesOf items)
  /-- On the way to them, or on any other, the text is the same. -/
  unnested : ∀ others, Relation.ReflTransGen Unnests items others →
    (array others).form = (array items).form
  /-- Two arrays with elements can be shown one after the other. -/
  append : ∀ others, items ≠ [] → others ≠ [] →
    (array (items ++ others)).form =
      (array items).form ++ [','] ++ (array others).form

theorem form_shows_leaves (items : List Json) : ShownByLeaves items := by
  have hflattened : Relation.ReflTransGen Unnests items (leavesOf items) :=
    unnests_leavesOf fun item _ => unnests_leaves item
  constructor
  · rw [← form_of_unnests hflattened]
    exact form_of_leaves fun _ => isLeaf_of_mem_leavesOf
  · exact fun _ => isLeaf_of_mem_leavesOf
  · exact hflattened
  · exact fun _ => form_of_unnests
  · exact fun _ => form_append

example : (array [string "a", array [null, array []],
    array [array [bool true]]]).formString = "a,,,true" := by decide

end SkillEngine.Json
