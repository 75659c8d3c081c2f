import Mathlib.Data.List.Count
import Mathlib.Data.List.Infix
import SkillEngine.Text.Case
import SkillEngine.Text.Pieces

/-!
# The lower case of a part of a text

The lower case of a text is put together from its characters, and only that of
a capital sigma depends on what stands around it.  A part of a text therefore
has the lower case that it has on its own, unless one of its sigmas takes the
other form because of what stands before or behind the part.

Which sigmas may do so can be read off the part.  The form of a sigma is
settled by the nearest characters on both sides that case does not ignore, as
far as they are needed, so it cannot change when these are in the part.  When
they are not, a letter behind the part takes the final form away, and a letter
before it gives it.
-/

namespace SkillEngine.Text

/-! ## Texts with something around them -/

/-- The lower case of a character between two texts, the one before it
reversed. -/
def lowerAmong (before : List Char) (c : Char) (after : List Char) :
    List Char :=
  if c = 'Σ' then [lowerSigma before after] else lowerChar c

/-- The lower case that a text has between two others, the one before it
reversed. -/
def lowerWithin (before : List Char) : List Char → List Char → List Char
  | [], _ => []
  | c :: rest, after =>
    lowerAmong before c (rest ++ after) ++ lowerWithin (c :: before) rest after

theorem lowerAfter_eq (before text : List Char) :
    lowerAfter before text = lowerWithin before text [] := by
  fun_induction lowerAfter before text with
  | case1 => rfl
  | case2 before rest ih => simp [lowerWithin, lowerAmong, ih]
  | case3 before c rest hsigma ih =>
      have hc : c ≠ 'Σ' := fun h => hsigma h
      simp [lowerWithin, lowerAmong, hc, ih]

theorem lower_eq (text : List Char) : lower text = lowerWithin [] text [] :=
  lowerAfter_eq [] text

theorem lowerWithin_append (before front rest after : List Char) :
    lowerWithin before (front ++ rest) after =
      lowerWithin before front (rest ++ after) ++
        lowerWithin (front.reverse ++ before) rest after := by
  induction front generalizing before with
  | nil => rfl
  | cons c front ih => simp [lowerWithin, ih]

theorem lower_append (before text after : List Char) :
    lower (before ++ text ++ after) =
      lowerWithin [] before (text ++ after) ++
        lowerWithin before.reverse text after ++
          lowerWithin (text.reverse ++ before.reverse) after [] := by
  rw [lower_eq, lowerWithin_append, lowerWithin_append]
  simp

/-! ## Sigmas whose form is settled -/

/-- The text has a character that case does not ignore. -/
def decides (text : List Char) : Bool :=
  !(text.dropWhile fun c => inRanges caseIgnorableRanges c.toNat).isEmpty

theorem startsCased_append (front rest : List Char) :
    startsCased (front ++ rest) =
      if decides front then startsCased front else startsCased rest := by
  unfold startsCased decides
  rw [List.dropWhile_append]
  cases front.dropWhile fun c => inRanges caseIgnorableRanges c.toNat with
  | nil => rfl
  | cons c front => rfl

theorem decides_of_startsCased {text : List Char}
    (h : startsCased text = true) : decides text = true := by
  unfold startsCased at h
  unfold decides
  cases hdrop : text.dropWhile fun c => inRanges caseIgnorableRanges c.toNat with
  | nil => simp [hdrop] at h
  | cons c rest => rfl

/-- The form of a capital sigma between two texts, the one before it reversed,
is the same whatever stands around these. -/
def settlesSigma (before after : List Char) : Bool :=
  startsCased after ||
    decides before && (!startsCased before || decides after)

theorem lowerSigma_of_settles {before after : List Char}
    (h : settlesSigma before after = true) (left right : List Char) :
    lowerSigma (before ++ left) (after ++ right) =
      lowerSigma before after := by
  have hafter : startsCased after = true → decides after = true :=
    decides_of_startsCased
  simp only [settlesSigma, Bool.or_eq_true, Bool.and_eq_true,
    Bool.not_eq_true'] at h
  rw [lowerSigma, startsCased_append, startsCased_append]
  rcases h with h | ⟨hbefore, h | h⟩
  · simp [lowerSigma, h, hafter h]
  · simp [lowerSigma, h, hbefore]
  · simp [lowerSigma, h, hbefore]

/-- The form of every capital sigma of a text is settled within it, the text
before it reversed. -/
def settledAfter (before : List Char) : List Char → Bool
  | [] => true
  | c :: rest =>
    (c != 'Σ' || settlesSigma before rest) && settledAfter (c :: before) rest

/-- Every capital sigma of the text has the same form in any text that it is a
part of. -/
def keepsSigmas (text : List Char) : Bool := settledAfter [] text

theorem lowerWithin_of_settledAfter {before text : List Char}
    (h : settledAfter before text = true) (left right : List Char) :
    lowerWithin (before ++ left) text right = lowerWithin before text [] := by
  induction text generalizing before with
  | nil => rfl
  | cons c rest ih =>
      obtain ⟨hc, hrest⟩ : (c ≠ 'Σ' ∨ settlesSigma before rest = true) ∧
          settledAfter (c :: before) rest = true := by
        simpa [settledAfter] using h
      have hlower : lowerAmong (before ++ left) c (rest ++ right) =
          lowerAmong before c rest := by
        rcases hc with hc | hc
        · simp [lowerAmong, hc]
        · simp [lowerAmong, lowerSigma_of_settles hc]
      rw [lowerWithin, lowerWithin, hlower, List.append_nil,
        ← List.cons_append, ih hrest]

/-- A text that keeps its sigmas has its lower case in every text that it is a
part of. -/
theorem lower_infix_of_keepsSigmas {part text : List Char}
    (h : keepsSigmas part = true) (hpart : part <:+: text) :
    lower part <:+: lower text := by
  obtain ⟨before, after, rfl⟩ := hpart
  refine ⟨lowerWithin [] before (part ++ after),
    lowerWithin (part.reverse ++ before.reverse) after [], ?_⟩
  have hsettled := lowerWithin_of_settledAfter h before.reverse after
  rw [List.nil_append] at hsettled
  rw [lower_append, hsettled, lower_eq]

/-! ## Sigmas whose form is not settled -/

theorem exists_unsettled {before text : List Char}
    (h : settledAfter before text = false) :
    ∃ front rest, text = front ++ 'Σ' :: rest ∧
      settlesSigma (front.reverse ++ before) rest = false := by
  induction text generalizing before with
  | nil => simp [settledAfter] at h
  | cons c rest ih =>
      cases hrest : settledAfter (c :: before) rest with
      | true =>
          obtain ⟨rfl, hunsettled⟩ :
              c = 'Σ' ∧ settlesSigma before rest = false := by
            simpa [settledAfter, hrest] using h
          exact ⟨[], rest, rfl, hunsettled⟩
      | false =>
          obtain ⟨front, behind, rfl, hunsettled⟩ := ih hrest
          exact ⟨c :: front, behind, rfl, by simpa using hunsettled⟩

section Count

variable {letter : Char} {left right : List Char}

theorem count_lowerAmong_le
    (hform : ∀ before after,
      lowerSigma (before ++ left) (after ++ right) = letter →
        lowerSigma before after = letter)
    (before : List Char) (c : Char) (after : List Char) :
    (lowerAmong (before ++ left) c (after ++ right)).count letter ≤
      (lowerAmong before c after).count letter := by
  by_cases hc : c = 'Σ'
  · rw [lowerAmong, lowerAmong, if_pos hc, if_pos hc]
    by_cases h : lowerSigma (before ++ left) (after ++ right) = letter
    · rw [h, hform before after h]
    · rw [List.count_singleton, if_neg (by simpa using h)]
      exact Nat.zero_le _
  · rw [lowerAmong, lowerAmong, if_neg hc, if_neg hc]

/-- One form of the sigma is not more frequent between `left` and `right` when
no sigma changes to it. -/
theorem count_lowerWithin_le
    (hform : ∀ before after,
      lowerSigma (before ++ left) (after ++ right) = letter →
        lowerSigma before after = letter)
    (before text after : List Char) :
    (lowerWithin (before ++ left) text (after ++ right)).count letter ≤
      (lowerWithin before text after).count letter := by
  induction text generalizing before with
  | nil => exact le_rfl
  | cons c rest ih =>
      rw [lowerWithin, lowerWithin, List.count_append, List.count_append,
        ← List.append_assoc]
      exact Nat.add_le_add
        (count_lowerAmong_le hform before c (rest ++ after)) (ih (c :: before))

theorem lowerWithin_around_sigma (before front rest after : List Char) :
    lowerWithin before (front ++ 'Σ' :: rest) after =
      lowerWithin before front ('Σ' :: (rest ++ after)) ++
        lowerSigma (front.reverse ++ before) (rest ++ after) ::
          lowerWithin ('Σ' :: (front.reverse ++ before)) rest after := by
  rw [lowerWithin_append]
  rfl

/-- It is less frequent when one sigma changes to the other form. -/
theorem count_lowerWithin_lt {front rest : List Char}
    (hform : ∀ before after,
      lowerSigma (before ++ left) (after ++ right) = letter →
        lowerSigma before after = letter)
    (hwas : lowerSigma front.reverse rest = letter)
    (hbecomes : lowerSigma (front.reverse ++ left) (rest ++ right) ≠ letter) :
    (lowerWithin left (front ++ 'Σ' :: rest) right).count letter <
      (lower (front ++ 'Σ' :: rest)).count letter := by
  have hfront := count_lowerWithin_le hform [] front ('Σ' :: rest)
  have hrest := count_lowerWithin_le hform ('Σ' :: front.reverse) rest []
  rw [lower_eq, lowerWithin_around_sigma, lowerWithin_around_sigma]
  simp only [List.nil_append, List.append_nil, List.cons_append] at *
  rw [List.count_append, List.count_append, hwas, List.count_cons_self,
    List.count_cons_of_ne hbecomes]
  omega

/-- The lower case of a part is not in that of a text that has fewer sigmas of
one form. -/
theorem not_infix_of_count_lt {part : List Char}
    (hcount : (lowerWithin left.reverse part right).count letter <
      (lower part).count letter)
    (hleft : letter ∉ lowerWithin [] left (part ++ right))
    (hright : letter ∉ lowerWithin (part.reverse ++ left.reverse) right []) :
    ¬lower part <:+: lower (left ++ part ++ right) := by
  intro hinfix
  have hle := hinfix.sublist.count_le letter
  rw [lower_append, List.count_append, List.count_append,
    List.count_eq_zero_of_not_mem hleft,
    List.count_eq_zero_of_not_mem hright] at hle
  omega

end Count

theorem lowerSigma_eq_final {before after : List Char} :
    lowerSigma before after = 'ς' ↔
      startsCased before = true ∧ startsCased after = false := by
  simp [lowerSigma]

theorem lowerSigma_eq_small {before after : List Char} :
    lowerSigma before after = 'σ' ↔
      (startsCased before = true → startsCased after = true) := by
  simp [lowerSigma]

theorem startsCased_append_letter (text : List Char) :
    startsCased (text ++ ['A']) = (startsCased text || !decides text) := by
  have hletter : startsCased ['A'] = true := by decide +kernel
  rw [startsCased_append, hletter]
  cases decides text <;> simp

/-- A letter behind a text takes the final form away from a sigma at the end
of a word. -/
theorem not_infix_before_letter {front rest : List Char}
    (hcased : startsCased front.reverse = true)
    (hafter : startsCased rest = false) (hopen : decides rest = false) :
    ¬lower (front ++ 'Σ' :: rest) <:+:
      lower ([] ++ (front ++ 'Σ' :: rest) ++ ['A']) := by
  have hletter : 'ς' ∉ lowerChar 'A' := by decide +kernel
  apply @not_infix_of_count_lt 'ς'
  case hcount =>
    apply count_lowerWithin_lt
    case hform =>
      intro before after
      rw [lowerSigma_eq_final, lowerSigma_eq_final, startsCased_append_letter]
      simp +contextual
    case hwas => exact lowerSigma_eq_final.mpr ⟨hcased, hafter⟩
    case hbecomes =>
      rw [Ne, lowerSigma_eq_final, startsCased_append_letter]
      simp [hopen]
  case hleft => simp [lowerWithin]
  case hright => simpa [lowerWithin, lowerAmong] using hletter

/-- A letter before a text gives the final form to a sigma with which a word
ends. -/
theorem not_infix_after_letter {front rest : List Char}
    (hafter : startsCased rest = false) (hopen : decides front.reverse = false) :
    ¬lower (front ++ 'Σ' :: rest) <:+:
      lower (['A'] ++ (front ++ 'Σ' :: rest) ++ []) := by
  have hletter : 'σ' ∉ lowerChar 'A' := by decide +kernel
  have hcased : startsCased front.reverse = false := by
    cases hstarts : startsCased front.reverse with
    | false => rfl
    | true => simp [decides_of_startsCased hstarts] at hopen
  apply @not_infix_of_count_lt 'σ'
  case hcount =>
    apply count_lowerWithin_lt
    case hform =>
      intro before after
      rw [List.reverse_singleton, lowerSigma_eq_small, lowerSigma_eq_small,
        startsCased_append_letter, List.append_nil]
      intro h hbefore
      exact h (by simp [hbefore])
    case hwas =>
      exact lowerSigma_eq_small.mpr (by simp [hcased])
    case hbecomes =>
      rw [Ne, List.reverse_singleton, lowerSigma_eq_small,
        startsCased_append_letter, List.append_nil]
      simp [hopen, hafter]
  case hleft => simpa [lowerWithin, lowerAmong] using hletter
  case hright => simp [lowerWithin]

/-- The lower case of a text that does not keep its sigmas is not in the lower
case of some text that it is a part of. -/
theorem exists_not_infix {part : List Char} (h : keepsSigmas part = false) :
    ∃ text, part <:+: text ∧ ¬lower part <:+: lower text := by
  obtain ⟨front, rest, rfl, hunsettled⟩ := exists_unsettled h
  rw [List.append_nil] at hunsettled
  obtain ⟨hafter, hbefore⟩ : startsCased rest = false ∧
      (decides front.reverse = true →
        startsCased front.reverse = true ∧ decides rest = false) := by
    simpa [settlesSigma] using hunsettled
  cases hdecides : decides front.reverse with
  | false =>
      exact ⟨_, ⟨['A'], [], rfl⟩, not_infix_after_letter hafter hdecides⟩
  | true =>
      obtain ⟨hcased, hopen⟩ := hbefore hdecides
      exact ⟨_, ⟨[], ['A'], rfl⟩,
        not_infix_before_letter hcased hafter hopen⟩

end SkillEngine.Text
