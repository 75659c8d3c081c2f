import Mathlib.Algebra.Order.BigOperators.Group.List
import Mathlib.Data.List.Induction
import Mathlib.Data.List.Nodup
import SkillEngine.Proofs.Template.Filling

/-!
# The names that a template mentions

The list of placeholders names the slots that stand in a template, each once
and in the order in which they appear first.  These are the names on which
filling depends, and no others: data that agree on them fill the template
alike, and every one of them makes a difference, whatever text is put in its
place, unless that text is the slot itself.

That a difference shows in the filled text is not clear from one slot alone,
since differences could make up for each other.  They cannot: all texts that
are put in are the same, so each of them is longer than its slot, or none is.
-/

namespace SkillEngine.Template

variable {name early late : String} {template rest : List Char}

/-- The names of the slots from left to right, each as often as it appears. -/
def slotNames (template : List Char) : List String :=
  (pieces template).filterMap Piece.name?

theorem placeholders_eq (template : String) :
    placeholders template = (slotNames template.toList).eraseDups := rfl

theorem slotNames_nil : slotNames [] = [] := rfl

theorem slotNames_slotText {front : List Char} (h : IsSlotName front)
    (rest : List Char) :
    slotNames (slotText front ++ rest) =
      String.ofList front :: slotNames rest := by
  rw [slotNames, pieces_slotText h]
  rfl

theorem slotNames_cons {c : Char} (hnone : slotName? (c :: rest) = none) :
    slotNames (c :: rest) = slotNames rest := by
  rw [slotNames, pieces_cons hnone]
  rfl

theorem slot_mem_pieces_of_name :
    .slot name.toList ∈ pieces template ↔ name ∈ slotNames template := by
  rw [slotNames, List.mem_filterMap]
  constructor
  · intro h
    exact ⟨_, h, by simp [Piece.name?]⟩
  · rintro ⟨piece, hpiece, hname⟩
    cases piece with
    | char c => cases hname
    | slot chars =>
      obtain rfl : String.ofList chars = name := Option.some.inj hname
      simpa using hpiece

theorem mem_slotNames_iff :
    name ∈ slotNames template ↔
      ∃ position, StandsAt template position name.toList := by
  rw [← slot_mem_pieces_of_name, slot_mem_pieces_iff]

/-! ## Their order -/

/-- Without repeats, items are listed as they appear first. -/
theorem pairwise_idxOf_eraseDups (items : List String) :
    items.eraseDups.Pairwise fun early late =>
      items.idxOf early < items.idxOf late := by
  induction items using List.reverseRecOn with
  | nil => simp
  | append_singleton items item ih =>
    have hearlier : items.eraseDups.Pairwise fun early late =>
        (items ++ [item]).idxOf early < (items ++ [item]).idxOf late := by
      apply ih.imp_of_mem
      intro early late hearly hlate hlt
      rw [List.mem_eraseDups] at hearly hlate
      rwa [List.idxOf_append_of_mem hearly, List.idxOf_append_of_mem hlate]
    rw [List.eraseDups_append]
    by_cases hmem : item ∈ items
    · simpa [List.removeAll, hmem] using hearlier
    · have hnew : ([item].removeAll items).eraseDups = [item] := by
        simp [List.removeAll, hmem, List.eraseDups_cons]
      rw [hnew, List.pairwise_append]
      refine ⟨hearlier, List.pairwise_singleton _ _, ?_⟩
      intro early hearly late hlate
      rw [List.mem_eraseDups] at hearly
      obtain rfl : late = item := by simpa using hlate
      rw [List.idxOf_append_of_mem hearly, List.idxOf_append_of_notMem hmem]
      have hlt := List.idxOf_lt_length_iff.mpr hearly
      omega

/-- What is found first among the names stands first in the template. -/
theorem exists_standsAt_before
    (h : (slotNames template).idxOf early < (slotNames template).idxOf late) :
    ∃ position, StandsAt template position early.toList ∧
      ∀ other, StandsAt template other late.toList → position < other := by
  induction template using induction with
  | nil => simp [slotNames_nil] at h
  | slot front rest hfront ih =>
    rw [slotNames_slotText hfront, List.idxOf_cons, List.idxOf_cons] at h
    simp only [standsAt_slotText_iff hfront]
    have hlate : String.ofList front ≠ late := by
      rintro rfl
      simp at h
    have hother : late.toList ≠ front := by
      rintro rfl
      exact hlate String.ofList_toList
    by_cases hearly : String.ofList front = early
    · subst hearly
      refine ⟨0, .inl ⟨rfl, by simp⟩, ?_⟩
      rintro other (⟨-, hname⟩ | ⟨behind, rfl, -⟩)
      · exact absurd hname hother
      · omega
    · have hrest : (slotNames rest).idxOf early <
          (slotNames rest).idxOf late := by
        simpa [beq_eq_false_iff_ne.mpr hearly, beq_eq_false_iff_ne.mpr hlate]
          using h
      obtain ⟨position, hstands, hbefore⟩ := ih hrest
      refine ⟨_, .inr ⟨position, rfl, hstands⟩, ?_⟩
      rintro other (⟨-, hname⟩ | ⟨behind, rfl, hbehind⟩)
      · exact absurd hname hother
      · have hlt := hbefore behind hbehind
        omega
  | char c rest hnone ih =>
    rw [slotNames_cons hnone] at h
    obtain ⟨position, hstands, hbefore⟩ := ih h
    refine ⟨position + 1, standsAt_cons_succ.mpr hstands, ?_⟩
    intro other hother
    obtain ⟨behind, rfl, hbehind⟩ := (standsAt_cons_iff hnone).mp hother
    have hlt := hbefore behind hbehind
    omega

/-! ## Filling with one value -/

theorem fillChars_congr {first second : Json.Object}
    (h : ∀ name ∈ slotNames template, first.find? name = second.find? name) :
    fillChars template first = fillChars template second := by
  apply List.flatMap_congr
  intro piece hpiece
  cases piece with
  | char c => rfl
  | slot chars =>
    have hname : String.ofList chars ∈ slotNames template :=
      List.mem_filterMap.mpr ⟨_, hpiece, rfl⟩
    simp only [fillPiece, h _ hname]

/-- Texts that are put together from parts, all of them no longer on one side
than on the other, are equal only part by part. -/
theorem eq_of_flatMap_eq {α β : Type} {items : List α} {short long : α → List β}
    (hle : ∀ item ∈ items, (short item).length ≤ (long item).length)
    (h : items.flatMap short = items.flatMap long) :
    ∀ item ∈ items, short item = long item := by
  induction items with
  | nil => simp
  | cons first items ih =>
    obtain ⟨hfirst, hitems⟩ := List.forall_mem_cons.mp hle
    have hrest : (items.flatMap short).length ≤
        (items.flatMap long).length := by
      rw [List.length_flatMap, List.length_flatMap]
      exact List.sum_le_sum hitems
    rw [List.flatMap_cons, List.flatMap_cons] at h
    have hlengths := congrArg List.length h
    rw [List.length_append, List.length_append] at hlengths
    obtain ⟨hsame, hsames⟩ := List.append_inj h (by omega)
    rw [List.forall_mem_cons]
    exact ⟨hsame, ih hitems hsames⟩

theorem fillPiece_single (name text : String) (piece : Piece) :
    fillPiece [(name, .string text)] piece =
      if piece = .slot name.toList then text.toList else piece.text := by
  cases piece with
  | char c => simp [fillPiece, Piece.text]
  | slot chars =>
    by_cases hname : String.ofList chars = name
    · subst hname
      simp [fillPiece, Dict.find?_cons, Json.form]
    · have hchars : chars ≠ name.toList := by
        rintro rfl
        exact hname String.ofList_toList
      simp [fillPiece, Dict.find?_cons, hname, hchars, Piece.text]

/-- Parts with and without the value compare like the value and its slot. -/
theorem related_fillPiece_single {text : String}
    (related : List Char → List Char → Prop)
    (hrefl : ∀ chars, related chars chars)
    (hslot : related text.toList (slotText name.toList)) (piece : Piece) :
    related (fillPiece [(name, .string text)] piece) piece.text := by
  rw [fillPiece_single]
  split
  next hpiece =>
    rw [hpiece]
    exact hslot
  next => exact hrefl _

/-- A name that stands in the template leaves a trace of every text but its
slot. -/
theorem fillChars_single_ne {text : String} (hmem : name ∈ slotNames template)
    (hne : text.toList ≠ slotText name.toList) :
    fillChars template [(name, .string text)] ≠ template := by
  intro heq
  have hslot := slot_mem_pieces_of_name.mpr hmem
  have hpieces : (pieces template).flatMap
      (fillPiece [(name, .string text)]) =
        (pieces template).flatMap Piece.text := by
    rw [flatMap_text_pieces]
    exact heq
  have hsame : fillPiece [(name, .string text)] (.slot name.toList) =
      Piece.text (.slot name.toList) := by
    rcases le_total text.toList.length (slotText name.toList).length with
      hle | hge
    · refine eq_of_flatMap_eq ?_ hpieces _ hslot
      intro piece _
      exact related_fillPiece_single (·.length ≤ ·.length) (fun _ => le_rfl)
        hle piece
    · refine (eq_of_flatMap_eq ?_ hpieces.symm _ hslot).symm
      intro piece _
      exact related_fillPiece_single (·.length ≥ ·.length) (fun _ => le_rfl)
        hge piece
  rw [fillPiece_single, if_pos rfl] at hsame
  exact hne hsame

theorem fillChars_single_of_not_mem {text : String}
    (h : name ∉ slotNames template) :
    fillChars template [(name, .string text)] = template := by
  apply fillChars_eq_self
  intro position chars hstands
  have hne : String.ofList chars ≠ name := by
    rintro rfl
    exact h (mem_slotNames_iff.mpr ⟨position, by simpa using hstands⟩)
  simp [Dict.find?_cons, hne]

/-! ## What the list of placeholders tells -/

/-- The names are those of the slots of the template, and those on which
filling it depends. -/
structure NamesSlots (template : String) (names : List String) : Prop where
  nodup : names.Nodup
  /-- Exactly the names of the slots that stand somewhere. -/
  stands : ∀ name, name ∈ names ↔
    ∃ position, StandsAt template.toList position name.toList
  /-- A name that is listed before another appears before it. -/
  inOrder : names.Pairwise fun early late =>
    ∃ position, StandsAt template.toList position early.toList ∧
      ∀ other, StandsAt template.toList other late.toList → position < other
  /-- Data that agree on the names fill the template alike. -/
  determines : ∀ first second : Json.Object,
    (∀ name ∈ names, first.find? name = second.find? name) →
      fill template first = fill template second
  /-- Every one of the names, and no other, makes a difference. -/
  matters : ∀ name, name ∈ names ↔ ∀ text : String, text ≠ slot name →
    fill template [(name, .string text)] ≠ template

theorem placeholders_name_slots (template : String) :
    NamesSlots template (placeholders template) := by
  have hmem : ∀ name, name ∈ placeholders template ↔
      name ∈ slotNames template.toList := by
    intro name
    rw [placeholders_eq, List.mem_eraseDups]
  have hplaced := pairwise_idxOf_eraseDups (slotNames template.toList)
  constructor
  case nodup =>
    apply hplaced.imp
    rintro early late hlt rfl
    exact lt_irrefl _ hlt
  case stands =>
    intro name
    rw [hmem, mem_slotNames_iff]
  case inOrder =>
    apply hplaced.imp
    intro early late hlt
    exact exists_standsAt_before hlt
  case determines =>
    intro first second hagree
    rw [fill, fill, fillChars_congr]
    intro name hname
    exact hagree name ((hmem name).mpr hname)
  case matters =>
    intro name
    rw [hmem]
    constructor
    · intro hname text hne heq
      have hchars : text.toList ≠ slotText name.toList := by
        intro htext
        apply hne
        rw [slot, ← htext, String.ofList_toList]
      apply fillChars_single_ne hname hchars
      simpa [fill] using congrArg String.toList heq
    · intro hdiffers
      by_contra hname
      apply hdiffers ""
      · intro hempty
        have hlength := congrArg (·.toList.length) hempty
        simp [slot, slotText] at hlength
      · rw [fill, fillChars_single_of_not_mem hname, String.ofList_toList]

end SkillEngine.Template
