import Mathlib.Data.List.Basic
import Mathlib.Data.List.Infix
import Mathlib.Data.List.TakeWhile
import SkillEngine.Template.Basic

/-!
# Where slots stand

A slot stands at a position of a text when its characters do.  This says
nothing about a direction in which the text is read, or about other slots.
Still two slots never overlap, because no character of a name is a brace; so
the parts that are found from left to right hold all slots that stand
somewhere, which is `slot_mem_pieces_iff`.

Facts about templates are proved by `Template.induction`, which follows the
parts: a slot with the text behind it, or a character at which no slot stands.
-/

namespace SkillEngine.Template

/-- The characters are the name of a slot: at least one, and no others than
those that a name may hold. -/
def IsSlotName (name : List Char) : Prop :=
  name ≠ [] ∧ ∀ c ∈ name, isNameChar c = true

/-- The slot of the name stands at the position of the text. -/
structure StandsAt (text : List Char) (position : Nat) (name : List Char) :
    Prop where
  isName : IsSlotName name
  isPrefix : slotText name <+: text.drop position

variable {c : Char} {text rest name other : List Char} {position : Nat}

theorem IsSlotName.ne_brace (h : IsSlotName name) (hc : c ∈ name) :
    c ≠ '{' ∧ c ≠ '}' := by
  have hletter := h.2 c hc
  constructor
  · rintro rfl
    exact absurd hletter (by decide)
  · rintro rfl
    exact absurd hletter (by decide)

@[simp] theorem length_slotText (name : List Char) :
    (slotText name).length = name.length + 4 := by
  simp [slotText]

/-! ## The slot at the front -/

theorem takeWhile_isNameChar (h : IsSlotName name) (rest : List Char) :
    (name ++ '}' :: rest).takeWhile isNameChar = name := by
  rw [List.takeWhile_append_of_pos h.2, List.takeWhile_cons_of_neg (by decide),
    List.append_nil]

theorem dropWhile_isNameChar (h : IsSlotName name) (rest : List Char) :
    (name ++ '}' :: rest).dropWhile isNameChar = '}' :: rest := by
  rw [List.dropWhile_append_of_pos h.2, List.dropWhile_cons_of_neg (by decide)]

theorem slotName?_slotText (h : IsSlotName name) (rest : List Char) :
    slotName? (slotText name ++ rest) = some name := by
  have htext : slotText name ++ rest =
      '{' :: '{' :: (name ++ '}' :: '}' :: rest) := by
    simp [slotText]
  rw [htext, slotName?, takeWhile_isNameChar h, dropWhile_isNameChar h]
  simp [h.1]

theorem slotName?_eq_some_iff :
    slotName? text = some name ↔
      IsSlotName name ∧ slotText name <+: text := by
  constructor
  · intro h
    unfold slotName? at h
    split at h
    next rest =>
      dsimp only at h
      split at h
      next behind hbehind =>
        split at h
        · simp at h
        next hne =>
          obtain rfl := Option.some.inj h
          have hletters : ∀ c ∈ rest.takeWhile isNameChar,
              isNameChar c = true := by
            intro c hc
            exact List.mem_takeWhile_imp hc
          refine ⟨⟨by simpa using hne, hletters⟩, behind, ?_⟩
          have hwhole := List.takeWhile_append_dropWhile
            (p := isNameChar) (l := rest)
          rw [hbehind] at hwhole
          simp [slotText, hwhole]
      next => simp at h
    next => simp at h
  · rintro ⟨hname, rest, rfl⟩
    exact slotName?_slotText hname rest

theorem standsAt_iff :
    StandsAt text position name ↔
      slotName? (text.drop position) = some name := by
  rw [slotName?_eq_some_iff]
  exact ⟨fun h => ⟨h.isName, h.isPrefix⟩, fun h => ⟨h.1, h.2⟩⟩

/-- At one position there is no other slot. -/
theorem StandsAt.unique (h : StandsAt text position name)
    (hother : StandsAt text position other) : other = name := by
  rw [standsAt_iff] at h hother
  exact Option.some.inj (hother.symm.trans h)

theorem StandsAt.exists_eq (h : StandsAt text position name) :
    ∃ before after, text = before ++ slotText name ++ after ∧
      before.length = position := by
  obtain ⟨after, hafter⟩ := h.isPrefix
  have hlt : position < text.length := by
    by_contra hge
    rw [List.drop_eq_nil_of_le (by omega)] at hafter
    simp [slotText] at hafter
  refine ⟨text.take position, after, ?_, by simp; omega⟩
  rw [List.append_assoc, hafter, List.take_append_drop]

theorem standsAt_append (h : IsSlotName name) (before after : List Char) :
    StandsAt (before ++ slotText name ++ after) before.length name where
  isName := h
  isPrefix := by simp [List.append_assoc]

/-! ## Slots further on -/

theorem standsAt_cons_succ :
    StandsAt (c :: text) (position + 1) name ↔ StandsAt text position name := by
  rw [standsAt_iff, standsAt_iff, List.drop_succ_cons]

theorem standsAt_cons_iff (hnone : slotName? (c :: text) = none) :
    StandsAt (c :: text) position name ↔
      ∃ behind, position = behind + 1 ∧ StandsAt text behind name := by
  cases position with
  | zero => simp [standsAt_iff, hnone]
  | succ behind => simp [standsAt_cons_succ]

theorem slotName?_eq_none_of_head
    (h : ∀ first second behind, text = first :: second :: behind →
      first ≠ '{' ∨ second ≠ '{') : slotName? text = none := by
  rw [Option.eq_none_iff_forall_ne_some]
  intro name hname
  obtain ⟨behind, rfl⟩ := (slotName?_eq_some_iff.mp hname).2
  have hbraces := h '{' '{' (name ++ ['}', '}'] ++ behind) (by simp [slotText])
  simp at hbraces

/-- No slot begins inside another: the second brace is followed by the name,
and neither a name nor the closing braces hold an opening one. -/
theorem slotName?_drop_slotText (h : IsSlotName name) (rest : List Char)
    {inside : Nat} (hpos : 0 < inside) (hlt : inside < name.length + 4) :
    slotName? ((slotText name ++ rest).drop inside) = none := by
  apply slotName?_eq_none_of_head
  intro first second behind hsplit
  obtain ⟨letter, letters, rfl⟩ := List.exists_cons_of_ne_nil h.1
  obtain rfl | ⟨further, rfl⟩ :
      inside = 1 ∨ ∃ further, inside = further + 2 := by
    rcases inside with _ | _ | further
    · omega
    · exact .inl rfl
    · exact .inr ⟨further, rfl⟩
  · right
    obtain ⟨-, rfl, -⟩ : '{' = first ∧ letter = second ∧ _ := by
      simpa [slotText] using hsplit
    exact (h.ne_brace List.mem_cons_self).1
  · left
    have hmem : first ∈ letter :: letters ++ ['}', '}'] := by
      have hfirst : (letter :: letters ++ ['}', '}'] ++ rest)[further]? =
          some first := by
        have hhead := congrArg (·[0]?) hsplit
        rw [List.getElem?_drop] at hhead
        simpa [slotText] using hhead
      have hbound : further < (letter :: letters ++ ['}', '}']).length := by
        simp at hlt ⊢
        omega
      rw [List.getElem?_append_left hbound] at hfirst
      exact List.mem_of_getElem? hfirst
    rcases List.mem_append.mp hmem with hmem | hmem
    · exact (h.ne_brace hmem).1
    · rintro rfl
      exact absurd hmem (by decide)

/-- Behind the slot at the front, the slots are those of the rest. -/
theorem standsAt_slotText_iff (h : IsSlotName name) :
    StandsAt (slotText name ++ rest) position other ↔
      position = 0 ∧ other = name ∨
        ∃ behind, position = name.length + 4 + behind ∧
          StandsAt rest behind other := by
  by_cases hfront : position = 0
  · subst hfront
    have hnever : ∀ behind, 0 ≠ name.length + 4 + behind := by omega
    simp [standsAt_iff, slotName?_slotText h, hnever, eq_comm]
  · by_cases hinside : position < name.length + 4
    · have hnone := slotName?_drop_slotText h rest (by omega) hinside
      simp only [standsAt_iff, hnone, hfront, false_and, false_or, reduceCtorEq,
        false_iff, not_exists, not_and]
      intro behind hposition
      omega
    · obtain ⟨behind, rfl⟩ : ∃ behind, position = name.length + 4 + behind :=
        ⟨position - (name.length + 4), by omega⟩
      have hdrop : (slotText name ++ rest).drop (name.length + 4 + behind) =
          rest.drop behind := by
        rw [← length_slotText, List.drop_length_add_append]
      simp [standsAt_iff, hdrop]

/-- Slots never overlap. -/
theorem StandsAt.apart {first second : Nat} (h : StandsAt text first name)
    (hother : StandsAt text second other) (hlt : first < second) :
    first + (slotText name).length ≤ second := by
  obtain ⟨before, after, rfl, rfl⟩ := h.exists_eq
  obtain ⟨further, rfl⟩ : ∃ further, second = before.length + further :=
    ⟨second - before.length, by omega⟩
  have hrest : StandsAt (slotText name ++ after) further other := by
    rw [standsAt_iff] at hother ⊢
    rwa [List.append_assoc, List.drop_length_add_append] at hother
  rcases (standsAt_slotText_iff h.isName).mp hrest with ⟨rfl, -⟩ | ⟨_, rfl, -⟩
  · omega
  · rw [length_slotText]
    omega

/-! ## The parts from left to right -/

theorem piecesFrom_append (front rest : List Char) :
    piecesFrom front.length (front ++ rest) = piecesFrom 0 rest := by
  induction front with
  | nil => rfl
  | cons c front ih => exact ih

theorem pieces_nil : pieces [] = [] := rfl

theorem pieces_slotText (h : IsSlotName name) (rest : List Char) :
    pieces (slotText name ++ rest) = .slot name :: pieces rest := by
  have htext : slotText name ++ rest =
      '{' :: (('{' :: (name ++ ['}', '}'])) ++ rest) := rfl
  have hlength : name.length + 3 = ('{' :: (name ++ ['}', '}'])).length := by
    simp
  have hfound := slotName?_slotText h rest
  rw [htext] at hfound ⊢
  rw [pieces, piecesFrom, hfound]
  simp only [hlength, piecesFrom_append, pieces]

theorem pieces_cons (hnone : slotName? (c :: rest) = none) :
    pieces (c :: rest) = .char c :: pieces rest := by
  rw [pieces, piecesFrom, hnone]
  rfl

/-- A fact holds of every template if it holds of the empty one, of a slot in
front of a template for which it holds, and of a character in front of such a
template, where no slot stands at the character. -/
theorem induction {motive : List Char → Prop} (template : List Char)
    (nil : motive [])
    (slot : ∀ name rest, IsSlotName name → motive rest →
      motive (slotText name ++ rest))
    (char : ∀ c rest, slotName? (c :: rest) = none → motive rest →
      motive (c :: rest)) :
    motive template := by
  induction hlength : template.length using Nat.strong_induction_on
    generalizing template with
  | _ length ih =>
    subst hlength
    cases template with
    | nil => exact nil
    | cons c rest =>
      cases hfront : slotName? (c :: rest) with
      | none => exact char c rest hfront (ih _ (by simp) rest rfl)
      | some name =>
        obtain ⟨hname, behind, hbehind⟩ := slotName?_eq_some_iff.mp hfront
        rw [← hbehind]
        refine slot name behind hname (ih _ ?_ behind rfl)
        rw [← hbehind]
        simp

/-- The parts make up the template. -/
theorem flatMap_text_pieces (template : List Char) :
    (pieces template).flatMap Piece.text = template := by
  induction template using induction with
  | nil => rfl
  | slot name rest hname ih =>
    rw [pieces_slotText hname, List.flatMap_cons, ih, Piece.text]
  | char c rest hnone ih =>
    rw [pieces_cons hnone, List.flatMap_cons, ih, Piece.text]
    rfl

/-- The slots among the parts are those that stand somewhere. -/
theorem slot_mem_pieces_iff :
    .slot name ∈ pieces text ↔ ∃ position, StandsAt text position name := by
  induction text using induction with
  | nil => simp [pieces_nil, standsAt_iff, slotName?]
  | slot front rest hfront ih =>
    rw [pieces_slotText hfront, List.mem_cons, ih]
    simp only [standsAt_slotText_iff hfront, Piece.slot.injEq]
    constructor
    · rintro (rfl | ⟨behind, hbehind⟩)
      · exact ⟨0, .inl ⟨rfl, rfl⟩⟩
      · exact ⟨_, .inr ⟨behind, rfl, hbehind⟩⟩
    · rintro ⟨position, ⟨-, rfl⟩ | ⟨behind, -, hbehind⟩⟩
      · exact .inl rfl
      · exact .inr ⟨behind, hbehind⟩
  | char c rest hnone ih =>
    rw [pieces_cons hnone, List.mem_cons, ih]
    simp [standsAt_cons_iff hnone]

/-- A slot splits the parts like the text: none reaches across its ends. -/
theorem pieces_around_slot (before : List Char) (h : IsSlotName name)
    (after : List Char) :
    pieces (before ++ slotText name ++ after) =
      pieces before ++ .slot name :: pieces after := by
  induction before using induction with
  | nil => exact pieces_slotText h after
  | slot front rest hfront ih =>
    rw [List.append_assoc, List.append_assoc, pieces_slotText hfront,
      ← List.append_assoc, ih, pieces_slotText hfront]
    rfl
  | char c rest hnone ih =>
    have hwhole : slotName? (c :: (rest ++ slotText name ++ after)) = none := by
      rw [Option.eq_none_iff_forall_ne_some]
      intro other hother
      have hfront : StandsAt (c :: rest ++ slotText name ++ after) 0 other := by
        rw [standsAt_iff]
        exact hother
      have hend := hfront.apart (standsAt_append h (c :: rest) after)
        (by simp)
      obtain ⟨hname, hprefix⟩ := slotName?_eq_some_iff.mp hother
      have hinside : slotText other <+: c :: rest := by
        have hboth : c :: rest <+: c :: (rest ++ slotText name ++ after) :=
          ⟨slotText name ++ after, by simp⟩
        exact List.prefix_of_prefix_length_le hprefix hboth
          (by simpa using hend)
      rw [slotName?_eq_some_iff.mpr ⟨hname, hinside⟩] at hnone
      cases hnone
    rw [pieces_cons hnone]
    exact (pieces_cons hwhole).trans (congrArg _ ih)

end SkillEngine.Template
