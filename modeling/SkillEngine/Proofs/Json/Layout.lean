import Mathlib.Tactic.ByContra
import SkillEngine.Json.Printer
import SkillEngine.Json.Reader

/-!
# How printed documents are laid out

The text of a document begins with neither a space nor a closing bracket, so a
reader that passes over spaces comes to a document, and one that looks for the
end of an array does not find it there.  Of numbers no more is needed than the
characters of which their texts consist.
-/

namespace SkillEngine.Json

/-! ## The characters of numerals -/

/-- The character may stand in the text of a number. -/
def isNumeral (c : Char) : Bool :=
  c.isDigit || c == '.' || c == 'e' || c == 'E' || c == '+' || c == '-'

theorem isNumeral_of_isDigit {c : Char} (h : c.isDigit = true) :
    isNumeral c = true := by
  simp [isNumeral, h]

/-- A text that is nothing but a numeral, as far as its characters tell. -/
def Numeral (text : List Char) : Prop := ∀ c ∈ text, isNumeral c = true

theorem numeral_nil : Numeral [] := by
  simp [Numeral]

theorem Numeral.append {first second : List Char} (hfirst : Numeral first)
    (hsecond : Numeral second) : Numeral (first ++ second) := by
  intro c hc
  exact (List.mem_append.mp hc).elim (hfirst c) (hsecond c)

theorem Numeral.cons {c : Char} {text : List Char} (hc : isNumeral c = true)
    (htext : Numeral text) : Numeral (c :: text) :=
  List.forall_mem_cons.mpr ⟨hc, htext⟩

theorem Numeral.of_subset {first second : List Char} (h : Numeral second)
    (hsubset : first ⊆ second) : Numeral first :=
  fun c hc => h c (hsubset hc)

theorem numeral_of_isDigit {text : List Char}
    (h : ∀ c ∈ text, c.isDigit = true) : Numeral text :=
  fun c hc => isNumeral_of_isDigit (h c hc)

theorem numeral_toDigits (value : Nat) : Numeral (Nat.toDigits 10 value) :=
  numeral_of_isDigit fun _ hc =>
    Nat.isDigit_of_mem_toDigits (by decide) (by decide) hc

theorem numeral_zeros (count : Nat) : Numeral (List.replicate count '0') := by
  intro c hc
  rw [List.eq_of_mem_replicate hc]
  decide

theorem numeral_positional (layout : FloatLayout) {digits : List Char}
    (h : Numeral digits) (leading : Int) :
    Numeral (layout.positional digits leading) := by
  rw [FloatLayout.positional]
  split
  · exact .cons (by decide) (.cons (by decide) ((numeral_zeros _).append h))
  · dsimp only
    split
    · refine (h.append (numeral_zeros _)).append ?_
      split
      · exact .cons (by decide) (.cons (by decide) numeral_nil)
      · exact numeral_nil
    · exact (h.of_subset (List.take_subset _ _)).append
        (.cons (by decide) (h.of_subset (List.drop_subset _ _)))

theorem numeral_scientific {digits : List Char} (h : Numeral digits)
    (leading : Int) : Numeral (FloatLayout.scientific digits leading) := by
  have hexponent : Numeral ('e' :: (if leading < 0 then '-' else '+') ::
      Nat.toDigits 10 leading.natAbs) := by
    refine .cons (by decide) (.cons ?_ (numeral_toDigits _))
    split <;> decide
  refine Numeral.append ?_ hexponent
  match digits, h with
  | [], h | [_], h => exact h
  | first :: second :: more, h =>
      obtain ⟨hfirst, hmore⟩ := List.forall_mem_cons.mp h
      exact .cons hfirst (.cons (by decide) hmore)

theorem numeral_finiteText (layout : FloatLayout) {format : FloatFormat}
    (x : Floating format) : Numeral (layout.finiteText x) := by
  rw [FloatLayout.finiteText]
  refine Numeral.append ?_ ?_
  · split
    · exact .cons (by decide) numeral_nil
    · exact numeral_nil
  · split
    · exact numeral_positional _ (.cons (by decide) numeral_nil) _
    · rw [FloatLayout.decimalText]
      have hdigits : Numeral ((Nat.toDigits 10
          (x.shortest layout.round).digits).reverse.dropWhile
            (· == '0')).reverse := by
        refine (numeral_toDigits (x.shortest layout.round).digits).of_subset ?_
        intro c hc
        rw [List.mem_reverse] at hc
        exact List.mem_reverse.mp ((List.dropWhile_sublist _).subset hc)
      split
      · exact numeral_positional _ hdigits _
      · exact numeral_scientific hdigits _

theorem finiteText_ne_nil (layout : FloatLayout) {format : FloatFormat}
    (x : Floating format) : layout.finiteText x ≠ [] := by
  have hpositional : ∀ digits leading,
      layout.positional digits leading ≠ [] := by
    intro digits leading
    rw [FloatLayout.positional]
    split
    · simp
    · dsimp only
      split
      next hshort =>
        cases digits with
        | nil => simp
        | cons digit digits => simp
      next => simp
  have hscientific : ∀ digits leading,
      FloatLayout.scientific digits leading ≠ [] := by
    intro digits leading
    exact List.append_ne_nil_of_right_ne_nil _ (List.cons_ne_nil _ _)
  rw [FloatLayout.finiteText]
  refine List.append_ne_nil_of_right_ne_nil _ ?_
  split
  · exact hpositional _ _
  · rw [FloatLayout.decimalText]
    split
    · exact hpositional _ _
    · exact hscientific _ _

/-- The text of a number is the word null, or it begins with the character of a
numeral and goes on with such characters. -/
theorem numberText_cases (value : Number) :
    numberText value = "null".toList ∨
      ∃ c more, numberText value = c :: more ∧ Numeral (c :: more) := by
  have hcases : ∀ {text : List Char}, text ≠ [] → Numeral text →
      ∃ c more, text = c :: more ∧ Numeral (c :: more) := by
    intro text hne htext
    obtain ⟨c, more, rfl⟩ := List.exists_cons_of_ne_nil hne
    exact ⟨c, more, rfl, htext⟩
  cases value with
  | integer value =>
      refine .inr (hcases ?_ ?_)
      · exact List.append_ne_nil_of_right_ne_nil _ Nat.toDigits_ne_nil
      · rw [numberText, intText]
        refine Numeral.append ?_ (numeral_toDigits _)
        split
        · exact .cons (by decide) numeral_nil
        · exact numeral_nil
  | single value =>
      rw [numberText]
      split
      · exact .inr (hcases (finiteText_ne_nil _ _) (numeral_finiteText _ _))
      · exact .inl rfl
  | double value =>
      rw [numberText]
      split
      · exact .inr (hcases (finiteText_ne_nil _ _) (numeral_finiteText _ _))
      · exact .inl rfl

theorem isSpace_of_isNumeral {c : Char} (h : isNumeral c = true) :
    isSpace c = false := by
  by_contra hspace
  simp only [isSpace, Bool.not_eq_false, Bool.or_eq_true, beq_iff_eq] at hspace
  rcases hspace with ((rfl | rfl) | rfl) | rfl <;> contradiction

/-! ## The first character of a printed document -/

theorem skipSpace_newLine (depth : Nat) (text : List Char) :
    skipSpace (newLine depth ++ text) = skipSpace text := by
  have hspaces : ∀ count, skipSpace (List.replicate count ' ' ++ text) =
      skipSpace text := by
    intro count
    induction count with
    | zero => rfl
    | succ count ih => exact ih
  exact hspaces (2 * depth)

/-- A printed document starts with neither a space nor a closing bracket. -/
theorem head_prettyChars (document : Json) (depth : Nat) :
    ∃ c more, document.prettyChars depth = c :: more ∧
      isSpace c = false ∧ c ≠ ']' := by
  cases document with
  | null => exact ⟨'n', _, rfl, rfl, by decide⟩
  | bool value => cases value <;> exact ⟨_, _, rfl, rfl, by decide⟩
  | string value => exact ⟨'"', _, rfl, rfl, by decide⟩
  | array items => cases items <;> exact ⟨'[', _, rfl, rfl, by decide⟩
  | object fields => cases fields <;> exact ⟨'{', _, rfl, rfl, by decide⟩
  | number value =>
      rcases numberText_cases value with htext | ⟨c, more, htext, hnumeral⟩
      · exact ⟨'n', _, htext, rfl, by decide⟩
      · have hc := (List.forall_mem_cons.mp hnumeral).1
        refine ⟨c, more, htext, isSpace_of_isNumeral hc, ?_⟩
        rintro rfl
        cases hc

theorem skipSpace_prettyChars (document : Json) (depth : Nat) (rest : List Char) :
    skipSpace (document.prettyChars depth ++ rest) =
      document.prettyChars depth ++ rest := by
  obtain ⟨c, more, htext, hspace, -⟩ := head_prettyChars document depth
  rw [htext, List.cons_append, skipSpace, List.dropWhile_cons, hspace]
  rfl

/-- No closing bracket stands in front of the items of an array. -/
theorem skipSpace_prettyItems (depth : Nat) (item : Json) (items : List Json)
    (rest : List Char) :
    ∃ c more,
      skipSpace (prettyItems depth (item :: items) ++ rest) = c :: more ∧
        c ≠ ']' := by
  obtain ⟨c, more, htext, -, hclose⟩ := head_prettyChars item depth
  have hskip : ∀ behind, skipSpace
      (newLine depth ++ (item.prettyChars depth ++ behind)) =
        c :: (more ++ behind) := by
    intro behind
    rw [skipSpace_newLine, skipSpace_prettyChars, htext, List.cons_append]
  cases items with
  | nil =>
      refine ⟨c, more ++ rest, ?_, hclose⟩
      rw [prettyItems, List.append_assoc]
      exact hskip rest
  | cons next items =>
      refine ⟨c, more ++ (',' :: prettyItems depth (next :: items) ++ rest), ?_,
        hclose⟩
      simp only [prettyItems, List.append_assoc]
      exact hskip _

theorem skipSpace_prettyFields (depth : Nat) (entry : String × Json)
    (fields : List (String × Json)) (rest : List Char) :
    ∃ more, skipSpace (prettyFields depth (entry :: fields) ++ rest) =
      '"' :: more := by
  obtain ⟨name, value⟩ := entry
  cases fields with
  | nil =>
      simp only [prettyFields, List.append_assoc, skipSpace_newLine]
      exact ⟨_, rfl⟩
  | cons next fields =>
      simp only [prettyFields, List.append_assoc, skipSpace_newLine]
      exact ⟨_, rfl⟩

end SkillEngine.Json
