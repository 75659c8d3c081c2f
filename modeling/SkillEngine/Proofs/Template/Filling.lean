import Mathlib.Logic.Relation
import SkillEngine.Proofs.Dict
import SkillEngine.Proofs.Template.Slot

/-!
# Filling in place

What a filled template is, without reading the template from left to right.
Every position of the template gives a share to the filled text: where a slot
with a value begins the text of the value, further inside such a slot nothing,
and anywhere else its own character.  `GivesAt` says this of one position, and
the filled text is made of all shares in order.

Nor does it matter in which order slots are found.  `PutsIn` puts the value of
any one slot in its place, in the text of the template that is left between
values that were put in before; `filled_of_putsIn` is the invariant of such a
step, so whoever goes on until no slot with a value is left ends with the
filled text.
-/

namespace SkillEngine.Template

variable {c : Char} {template rest name share whole : List Char}
  {data : Json.Object} {position : Nat}

/-! ## What a position gives -/

/-- The position is one of a slot that has a value. -/
def CoveredAt (template : List Char) (data : Json.Object) (position : Nat) :
    Prop :=
  ∃ start name, StandsAt template start name ∧
    data.has (String.ofList name) = true ∧
      start ≤ position ∧ position < start + (slotText name).length

/-- What a position of a template gives to the filled text. -/
inductive GivesAt (template : List Char) (data : Json.Object)
    (position : Nat) : List Char → Prop where
  /-- A slot begins here, and gives the text of its value. -/
  | value {name : List Char} {value : Json}
      (hstands : StandsAt template position name)
      (hvalue : data.find? (String.ofList name) = some value) :
      GivesAt template data position value.form
  /-- A slot with a value began before and ends behind. -/
  | nothing {start : Nat} {name : List Char}
      (hstands : StandsAt template start name)
      (hhas : data.has (String.ofList name) = true) (hstart : start < position)
      (hend : position < start + (slotText name).length) :
      GivesAt template data position []
  /-- The character stands for itself. -/
  | itself {c : Char} (hchar : template[position]? = some c)
      (hfree : ¬CoveredAt template data position) :
      GivesAt template data position [c]

theorem coveredAt_of_value {value : Json}
    (hstands : StandsAt template position name)
    (hvalue : data.find? (String.ofList name) = some value) :
    CoveredAt template data position := by
  refine ⟨position, name, hstands, ?_, le_rfl, ?_⟩
  · simp [Dict.has, hvalue]
  · simp

/-- A position gives one share only. -/
theorem GivesAt.unique {other : List Char}
    (h : GivesAt template data position share)
    (hother : GivesAt template data position other) : share = other := by
  cases h with
  | value hstands hvalue =>
    cases hother with
    | value hstands' hvalue' =>
      obtain rfl := hstands.unique hstands'
      rw [hvalue] at hvalue'
      exact congrArg Json.form (Option.some.inj hvalue')
    | nothing hstands' _ hstart hend =>
      have hapart := hstands'.apart hstands hstart
      omega
    | itself _ hfree =>
      exact absurd (coveredAt_of_value hstands hvalue) hfree
  | nothing hstands hhas hstart hend =>
    cases hother with
    | value hstands' hvalue' =>
      have hapart := hstands.apart hstands' hstart
      omega
    | nothing => rfl
    | itself _ hfree =>
      exact absurd ⟨_, _, hstands, hhas, hstart.le, hend⟩ hfree
  | itself hchar hfree =>
    cases hother with
    | value hstands hvalue =>
      exact absurd (coveredAt_of_value hstands hvalue) hfree
    | nothing hstands hhas hstart hend =>
      exact absurd ⟨_, _, hstands, hhas, hstart.le, hend⟩ hfree
    | itself hchar' _ =>
      rw [hchar] at hchar'
      rw [Option.some.inj hchar']

/-! ## Positions further on -/

theorem coveredAt_cons_iff (hnone : slotName? (c :: rest) = none) :
    CoveredAt (c :: rest) data position ↔
      ∃ behind, position = behind + 1 ∧ CoveredAt rest data behind := by
  constructor
  · rintro ⟨start, name, hstands, hhas, hstart, hend⟩
    obtain ⟨behind, rfl, hbehind⟩ := (standsAt_cons_iff hnone).mp hstands
    exact ⟨position - 1, by omega, behind, name, hbehind, hhas, by omega,
      by omega⟩
  · rintro ⟨position, rfl, start, name, hstands, hhas, hstart, hend⟩
    exact ⟨start + 1, name, standsAt_cons_succ.mpr hstands, hhas, by omega,
      by omega⟩

theorem coveredAt_slotText_iff (h : IsSlotName name) :
    CoveredAt (slotText name ++ rest) data position ↔
      data.has (String.ofList name) = true ∧ position < name.length + 4 ∨
        ∃ behind, position = name.length + 4 + behind ∧
          CoveredAt rest data behind := by
  constructor
  · rintro ⟨start, other, hstands, hhas, hstart, hend⟩
    rcases (standsAt_slotText_iff h).mp hstands with
      ⟨rfl, rfl⟩ | ⟨behind, rfl, hbehind⟩
    · rw [length_slotText] at hend
      exact .inl ⟨hhas, by omega⟩
    · exact .inr ⟨position - (name.length + 4), by omega, behind, other,
        hbehind, hhas, by omega, by omega⟩
  · rintro (⟨hhas, hlt⟩ | ⟨position, rfl, start, other, hstands, hhas, hstart,
      hend⟩)
    · refine ⟨0, name, (standsAt_slotText_iff h).mpr (.inl ⟨rfl, rfl⟩), hhas,
        by omega, ?_⟩
      rw [length_slotText]
      omega
    · exact ⟨name.length + 4 + start, other,
        (standsAt_slotText_iff h).mpr (.inr ⟨start, rfl, hstands⟩), hhas,
        by omega, by omega⟩

theorem GivesAt.cons (hnone : slotName? (c :: rest) = none)
    (h : GivesAt rest data position share) :
    GivesAt (c :: rest) data (position + 1) share := by
  cases h with
  | value hstands hvalue =>
    exact .value (standsAt_cons_succ.mpr hstands) hvalue
  | nothing hstands hhas hstart hend =>
    exact .nothing (standsAt_cons_succ.mpr hstands) hhas (by omega) (by omega)
  | itself hchar hfree =>
    refine .itself (by simpa using hchar) ?_
    rw [coveredAt_cons_iff hnone]
    rintro ⟨behind, hbehind, hcovered⟩
    obtain rfl : position = behind := by omega
    exact hfree hcovered

theorem GivesAt.behind_slot (hname : IsSlotName name)
    (h : GivesAt rest data position share) :
    GivesAt (slotText name ++ rest) data (name.length + 4 + position)
      share := by
  have hshift : ∀ {start other}, StandsAt rest start other →
      StandsAt (slotText name ++ rest) (name.length + 4 + start) other :=
    fun hstands => (standsAt_slotText_iff hname).mpr (.inr ⟨_, rfl, hstands⟩)
  cases h with
  | value hstands hvalue => exact .value (hshift hstands) hvalue
  | nothing hstands hhas hstart hend =>
    exact .nothing (hshift hstands) hhas (by omega) (by omega)
  | itself hchar hfree =>
    refine .itself ?_ ?_
    · rw [← hchar, ← length_slotText, List.getElem?_append_right (by omega)]
      congr 1
      omega
    · rw [coveredAt_slotText_iff hname]
      rintro (⟨-, hlt⟩ | ⟨behind, hbehind, hcovered⟩)
      · omega
      · obtain rfl : position = behind := by omega
        exact hfree hcovered

/-- The positions of the slot at the front, when it has a value. -/
theorem GivesAt.of_value {value : Json} (hname : IsSlotName name)
    (hvalue : data.find? (String.ofList name) = some value)
    (hlt : position < name.length + 4) :
    GivesAt (slotText name ++ rest) data position
      (if position = 0 then value.form else []) := by
  have hfront : StandsAt (slotText name ++ rest) 0 name :=
    (standsAt_slotText_iff hname).mpr (.inl ⟨rfl, rfl⟩)
  split
  next hzero =>
    subst hzero
    exact .value hfront hvalue
  next hpos =>
    refine .nothing hfront (by simp [Dict.has, hvalue]) (by omega) ?_
    rw [length_slotText]
    omega

/-- The positions of the slot at the front, when it has no value. -/
theorem GivesAt.of_no_value (hname : IsSlotName name)
    (hvalue : data.find? (String.ofList name) = none)
    (hchar : (slotText name)[position]? = some c) :
    GivesAt (slotText name ++ rest) data position [c] := by
  obtain ⟨hlt, -⟩ := List.getElem?_eq_some_iff.mp hchar
  refine .itself ?_ ?_
  · rw [List.getElem?_append_left hlt, hchar]
  · rw [coveredAt_slotText_iff hname]
    rw [length_slotText] at hlt
    rintro (⟨hhas, -⟩ | ⟨behind, rfl, -⟩)
    · simp [Dict.has, hvalue] at hhas
    · omega

/-! ## The filled text -/

/-- The text is made of what the positions of the template give, in order. -/
def IsFilling (template : List Char) (data : Json.Object)
    (filled : List Char) : Prop :=
  ∃ shares : List (List Char), shares.length = template.length ∧
    (∀ position share, shares[position]? = some share →
      GivesAt template data position share) ∧
    filled = shares.flatten

theorem IsFilling.unique {other : List Char}
    (h : IsFilling template data whole)
    (hother : IsFilling template data other) : whole = other := by
  obtain ⟨shares, hlength, hgives, rfl⟩ := h
  obtain ⟨others, hlength', hgives', rfl⟩ := hother
  congr 1
  apply List.ext_getElem (hlength.trans hlength'.symm)
  intro position hlt hlt'
  exact (hgives position _ (List.getElem?_eq_getElem hlt)).unique
    (hgives' position _ (List.getElem?_eq_getElem hlt'))

theorem IsFilling.cons (hnone : slotName? (c :: rest) = none)
    (h : IsFilling rest data whole) :
    IsFilling (c :: rest) data (c :: whole) := by
  obtain ⟨shares, hlength, hgives, rfl⟩ := h
  refine ⟨[c] :: shares, by simp [hlength], ?_, rfl⟩
  intro position share hshare
  cases position with
  | zero =>
    obtain rfl : [c] = share := by simpa using hshare
    refine .itself rfl ?_
    rw [coveredAt_cons_iff hnone]
    rintro ⟨behind, hbehind, -⟩
    omega
  | succ behind =>
    exact (hgives behind share (by simpa using hshare)).cons hnone

/-- Shares of a slot in front of those of what is behind it. -/
theorem IsFilling.behind {front : List (List Char)} (hname : IsSlotName name)
    (h : IsFilling rest data whole) (hlength : front.length = name.length + 4)
    (hfront : ∀ position share, front[position]? = some share →
      GivesAt (slotText name ++ rest) data position share) :
    IsFilling (slotText name ++ rest) data (front.flatten ++ whole) := by
  obtain ⟨shares, hshares, hgives, rfl⟩ := h
  refine ⟨front ++ shares, ?_, ?_, by simp⟩
  · rw [List.length_append, List.length_append, hlength, hshares,
      length_slotText]
  · intro position share hshare
    by_cases hlt : position < front.length
    · rw [List.getElem?_append_left hlt] at hshare
      exact hfront position share hshare
    · rw [List.getElem?_append_right (by omega)] at hshare
      have hbehind := (hgives _ share hshare).behind_slot hname
      rwa [← hlength, Nat.add_sub_cancel' (by omega)] at hbehind

theorem IsFilling.slot (hname : IsSlotName name)
    (h : IsFilling rest data whole) :
    IsFilling (slotText name ++ rest) data
      (fillPiece data (.slot name) ++ whole) := by
  cases hvalue : data.find? (String.ofList name) with
  | some value =>
    have hfront : IsFilling (slotText name ++ rest) data
        ((value.form :: List.replicate (name.length + 3) []).flatten ++
          whole) := by
      apply h.behind hname (by simp)
      intro position share hshare
      obtain ⟨hlt, hget⟩ := List.getElem?_eq_some_iff.mp hshare
      rw [List.length_cons, List.length_replicate] at hlt
      have hgives : GivesAt (slotText name ++ rest) data position
          (if position = 0 then value.form else []) :=
        .of_value hname hvalue hlt
      cases position with
      | zero =>
        obtain rfl : value.form = share := by simpa using hget
        exact hgives
      | succ behind =>
        obtain rfl : [] = share := by simpa using hget
        exact hgives
    simpa [fillPiece, hvalue] using hfront
  | none =>
    have hfront : IsFilling (slotText name ++ rest) data
        (((slotText name).map ([·])).flatten ++ whole) := by
      apply h.behind hname (by simp)
      intro position share hshare
      rw [List.getElem?_map, Option.map_eq_some_iff] at hshare
      obtain ⟨c, hchar, rfl⟩ := hshare
      exact .of_no_value hname hvalue hchar
    have hletters : ((slotText name).map ([·])).flatten = slotText name := by
      rw [← List.flatMap_def, List.flatMap_singleton']
    rw [hletters] at hfront
    simpa [fillPiece, hvalue] using hfront

theorem isFilling_fillChars (template : List Char) (data : Json.Object) :
    IsFilling template data (fillChars template data) := by
  induction template using induction with
  | nil => exact ⟨[], rfl, by simp, rfl⟩
  | slot name rest hname ih =>
    rw [fillChars, pieces_slotText hname, List.flatMap_cons]
    exact ih.slot hname
  | char c rest hnone ih =>
    rw [fillChars, pieces_cons hnone, List.flatMap_cons]
    exact ih.cons hnone

/-- Stray braces stay, and nothing is looked for in the text of a value. -/
example :
    fillChars ('{' :: slotText ['a'] ++ slotText ['b'] ++ ['}'])
        [("a", .string (slot "b"))] =
      '{' :: slotText ['b'] ++ slotText ['b'] ++ ['}'] := by
  decide

/-! ## Slots found in any order -/

/-- A stretch of a template that is being filled. -/
inductive Stretch where
  /-- Text of the template, in which slots may be found. -/
  | given (text : List Char)
  /-- Text that was put in, in which no slot is looked for. -/
  | put (text : List Char)

/-- The text of a stretch as it stands. -/
def Stretch.text : Stretch → List Char
  | given text | put text => text

/-- A slot with a value is found in one of the stretches of the template, and
the text of its value is put in its place. -/
inductive PutsIn (data : Json.Object) :
    List Stretch → List Stretch → Prop where
  | slot (early late : List Stretch) (before after : List Char)
      {name : List Char} {value : Json} (hname : IsSlotName name)
      (hvalue : data.find? (String.ofList name) = some value) :
      PutsIn data
        (early ++ .given (before ++ slotText name ++ after) :: late)
        (early ++ .given before :: .put value.form :: .given after :: late)

/-- One after another, values are put in place of slots. -/
def FillsBy (data : Json.Object) : List Stretch → List Stretch → Prop :=
  Relation.ReflTransGen (PutsIn data)

/-- No slot with a value is left. -/
def IsSettled (data : Json.Object) (state : List Stretch) : Prop :=
  ∀ next, ¬PutsIn data state next

/-- What a stretch is to become. -/
def Stretch.filled (data : Json.Object) : Stretch → List Char
  | given text => fillChars text data
  | put text => text

@[simp] theorem Stretch.filled_given (data : Json.Object) (text : List Char) :
    (given text).filled data = fillChars text data := rfl

@[simp] theorem Stretch.filled_put (data : Json.Object) (text : List Char) :
    (put text).filled data = text := rfl

/-- The text of the template that is left in a stretch. -/
def Stretch.leftOver : Stretch → List Char
  | given text => text
  | put _ => []

variable {state next last : List Stretch}

theorem fillChars_around_slot (before : List Char) (h : IsSlotName name)
    (after : List Char) (data : Json.Object) :
    fillChars (before ++ slotText name ++ after) data =
      fillChars before data ++ fillPiece data (.slot name) ++
        fillChars after data := by
  rw [fillChars, pieces_around_slot before h after, List.flatMap_append,
    List.flatMap_cons, ← List.append_assoc]
  rfl

/-- What all stretches together are to become is settled from the start. -/
theorem filled_of_putsIn (h : PutsIn data state next) :
    next.flatMap (·.filled data) = state.flatMap (·.filled data) := by
  obtain ⟨early, late, before, after, hname, hvalue⟩ := h
  have hsplit : fillChars (before ++ slotText _ ++ after) data =
      fillChars before data ++ _ ++ fillChars after data :=
    fillChars_around_slot before hname after data
  simp only [fillPiece, hvalue] at hsplit
  simp only [List.flatMap_append, List.flatMap_cons, Stretch.filled_given,
    Stretch.filled_put, hsplit]
  simp only [List.append_assoc]

theorem filled_of_fillsBy (h : FillsBy data state last) :
    last.flatMap (·.filled data) = state.flatMap (·.filled data) := by
  induction h with
  | refl => rfl
  | tail _ hputs ih => rw [filled_of_putsIn hputs, ih]

theorem leftOver_of_putsIn (h : PutsIn data state next) :
    (next.flatMap Stretch.leftOver).length <
      (state.flatMap Stretch.leftOver).length := by
  obtain ⟨early, late, before, after, hname, hvalue⟩ := h
  simp only [List.flatMap_append, List.flatMap_cons, Stretch.leftOver,
    List.length_append, List.length_nil, length_slotText]
  omega

/-- However slots have been found so far, the search comes to an end. -/
theorem exists_settled (data : Json.Object) (state : List Stretch) :
    ∃ last, FillsBy data state last ∧ IsSettled data last := by
  induction hleft : (state.flatMap Stretch.leftOver).length
    using Nat.strong_induction_on generalizing state with
  | _ left ih =>
    by_cases hsettled : IsSettled data state
    · exact ⟨state, .refl, hsettled⟩
    · obtain ⟨next, hputs⟩ : ∃ next, PutsIn data state next := by
        simpa [IsSettled] using hsettled
      obtain ⟨last, hlast, hend⟩ :=
        ih _ (hleft ▸ leftOver_of_putsIn hputs) next rfl
      exact ⟨last, .head hputs hlast, hend⟩

/-- A text without slots that have a value stays as it is. -/
theorem fillChars_eq_self {text : List Char}
    (h : ∀ position name, StandsAt text position name →
      data.find? (String.ofList name) = none) :
    fillChars text data = text := by
  have hpieces : ∀ piece ∈ pieces text, fillPiece data piece = piece.text := by
    intro piece hpiece
    cases piece with
    | char c => rfl
    | slot name =>
      obtain ⟨position, hstands⟩ := slot_mem_pieces_iff.mp hpiece
      simp [fillPiece, h position name hstands, Piece.text]
  calc fillChars text data
      = (pieces text).flatMap Piece.text := List.flatMap_congr hpieces
    _ = text := flatMap_text_pieces text

theorem text_of_settled (h : IsSettled data state) :
    state.flatMap Stretch.text = state.flatMap (·.filled data) := by
  apply List.flatMap_congr
  intro stretch hstretch
  cases stretch with
  | put text => rfl
  | given text =>
    apply Eq.symm
    apply fillChars_eq_self
    intro position name hstands
    rw [Option.eq_none_iff_forall_ne_some]
    intro value hvalue
    -- A slot with a value could still be put in.
    obtain ⟨before, after, rfl, -⟩ := hstands.exists_eq
    obtain ⟨early, late, rfl⟩ := List.append_of_mem hstretch
    exact h _ (.slot early late before after hstands.isName hvalue)

/-- How a filled template comes from the template and the data. -/
structure FillsInPlace (template : String) (data : Json.Object)
    (filled : String) : Prop where
  /-- Slots never overlap. -/
  apart : ∀ first second name other,
    StandsAt template.toList first name →
      StandsAt template.toList second other → first < second →
        first + (slotText name).length ≤ second
  /-- The filled text is the one to which every position gives its share. -/
  shared : ∀ text : String,
    IsFilling template.toList data text.toList ↔ text = filled
  /-- Slots may be found in any order, as long as any with a value is left. -/
  settled : ∀ state, FillsBy data [.given template.toList] state →
    IsSettled data state → state.flatMap Stretch.text = filled.toList
  /-- However slots are found, there is an end. -/
  settles : ∀ state, FillsBy data [.given template.toList] state →
    ∃ last, FillsBy data state last ∧ IsSettled data last

/-- Every template is filled in place. -/
theorem fill_in_place (template : String) (data : Json.Object) :
    FillsInPlace template data (fill template data) := by
  have hfilling := isFilling_fillChars template.toList data
  have hchars : (fill template data).toList =
      fillChars template.toList data := by
    simp [fill]
  constructor
  case apart =>
    intro first second name other hfirst hsecond hlt
    exact hfirst.apart hsecond hlt
  case shared =>
    intro text
    constructor
    · intro h
      rw [← String.toList_inj, hchars]
      exact h.unique hfilling
    · rintro rfl
      rwa [hchars]
  case settled =>
    intro state hfills hsettled
    rw [text_of_settled hsettled, filled_of_fillsBy hfills, hchars]
    simp
  case settles =>
    intro state _
    exact exists_settled data state

end SkillEngine.Template
