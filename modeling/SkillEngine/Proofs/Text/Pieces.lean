import SkillEngine.Text.Pieces

/-!
# Cutting what was joined, joining what was cut

Cutting a text at the characters of a class and joining pieces with a separator
are the splitting and the intercalation of lists, so what the library knows of
these holds of texts.  A text that is cut at one character is joined again with
it, and pieces without the character come back when their join is cut.
-/

namespace SkillEngine.Text

variable {separates : Char → Bool}

/-! ## Cutting -/

theorem extend_eq_modifyHead (c : Char) {pieces : List (List Char)}
    (hne : pieces ≠ []) : extend c pieces = pieces.modifyHead (c :: ·) := by
  cases pieces with
  | nil => exact absurd rfl hne
  | cons piece pieces => rfl

theorem cut_eq_splitOnP (text : List Char) :
    cut separates text = text.splitOnP separates := by
  induction text with
  | nil => rfl
  | cons c rest ih =>
      rw [cut, ih, List.splitOnP_cons_eq_if_modifyHead,
        extend_eq_modifyHead c (List.splitOnP_ne_nil separates rest)]

theorem cut_ne_nil (separates : Char → Bool) (text : List Char) :
    cut separates text ≠ [] := by
  rw [cut_eq_splitOnP]
  exact List.splitOnP_ne_nil separates text

/-- A text is cut at a separator into what stands before it and behind it. -/
theorem cut_append {c : Char} (hc : separates c = true)
    (text rest : List Char) :
    cut separates (text ++ c :: rest) =
      cut separates text ++ cut separates rest := by
  simp only [cut_eq_splitOnP]
  exact List.splitOnP_append_cons text rest hc

theorem flatten_extend (c : Char) (pieces : List (List Char)) :
    (extend c pieces).flatten = c :: pieces.flatten := by
  cases pieces with
  | nil => rfl
  | cons piece pieces => rfl

/-- The pieces hold everything but the separators. -/
theorem flatten_cut (separates : Char → Bool) (text : List Char) :
    (cut separates text).flatten = text.filter (!separates ·) := by
  induction text with
  | nil => rfl
  | cons c rest ih =>
      rw [cut]
      split
      next hc =>
        rw [List.filter_cons_of_neg (by simp [hc]), List.flatten_cons, ih,
          List.nil_append]
      next hc =>
        rw [List.filter_cons_of_pos (by simpa using hc), flatten_extend, ih]

theorem exists_mem_cut_iff {c : Char} {text : List Char} :
    (∃ piece ∈ cut separates text, c ∈ piece) ↔
      c ∈ text ∧ separates c = false := by
  rw [← List.mem_flatten, flatten_cut, List.mem_filter, Bool.not_eq_true']

theorem not_mem_of_mem_cutLines {text line : List Char}
    (h : line ∈ cutLines text) : '\n' ∉ line := by
  intro hmem
  have hfree := (exists_mem_cut_iff.mp ⟨line, h, hmem⟩).2
  simp at hfree

/-! ## Joining -/

theorem join_eq_intercalate (separator : List Char)
    (pieces : List (List Char)) :
    join separator pieces = separator.intercalate pieces := by
  fun_induction join separator pieces with
  | case1 => simp
  | case2 piece => simp
  | case3 piece pieces hne ih =>
      rw [List.intercalate_cons_of_ne_nil hne, ih]

theorem join_cons (separator piece : List Char) {pieces : List (List Char)}
    (hne : pieces ≠ []) :
    join separator (piece :: pieces) =
      piece ++ separator ++ join separator pieces := by
  simp only [join_eq_intercalate]
  exact List.intercalate_cons_of_ne_nil hne

theorem join_append (separator : List Char) {pieces others : List (List Char)}
    (hpieces : pieces ≠ []) (hothers : others ≠ []) :
    join separator (pieces ++ others) =
      join separator pieces ++ separator ++ join separator others := by
  induction pieces with
  | nil => exact absurd rfl hpieces
  | cons piece pieces ih =>
      by_cases hne : pieces = []
      · subst hne
        exact join_cons separator piece hothers
      · have hrest : pieces ++ others ≠ [] := by simp [hne]
        rw [List.cons_append, join_cons separator piece hrest, ih hne,
          join_cons separator piece hne]
        simp only [List.append_assoc]

/-- A piece that is itself a join can be given by its pieces. -/
theorem join_join (separator : List Char) (before : List (List Char))
    {inner : List (List Char)} (hinner : inner ≠ [])
    (after : List (List Char)) :
    join separator (before ++ join separator inner :: after) =
      join separator (before ++ inner ++ after) := by
  have hbehind : join separator (join separator inner :: after) =
      join separator (inner ++ after) := by
    by_cases hafter : after = []
    · subst hafter
      rw [List.append_nil]
      rfl
    · rw [join_cons separator _ hafter, join_append separator hinner hafter]
  by_cases hbefore : before = []
  · subst hbefore
    exact hbehind
  · have hne : inner ++ after ≠ [] := by simp [hinner]
    rw [join_append separator hbefore (List.cons_ne_nil _ _), hbehind,
      List.append_assoc before, join_append separator hbefore hne]

/-! ## Cutting and joining at one character -/

theorem cut_eq_splitOn (separator : Char) (text : List Char) :
    cut (· == separator) text = text.splitOn separator := by
  rw [cut_eq_splitOnP, List.splitOn_eq_splitOnP]

/-- Pieces without the separator come back. -/
theorem cut_join {separator : Char} {pieces : List (List Char)}
    (hne : pieces ≠ []) (hpieces : ∀ piece ∈ pieces, separator ∉ piece) :
    cut (· == separator) (join [separator] pieces) = pieces := by
  rw [cut_eq_splitOn, join_eq_intercalate]
  exact List.splitOn_intercalate separator hpieces hne

theorem join_cut (separator : Char) (text : List Char) :
    join [separator] (cut (· == separator) text) = text := by
  rw [cut_eq_splitOn, join_eq_intercalate]
  exact List.intercalate_splitOn separator

end SkillEngine.Text
