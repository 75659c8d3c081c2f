import Mathlib.Data.List.TakeWhile
import SkillEngine.Json.Printer
import SkillEngine.Json.Reader
import SkillEngine.Proofs.Codec.Conveyance

/-!
# Numbers in texts

A number that is read from its own text is read from the front of a longer
text as well, if the text goes on with a character that ends a number.  Whole
numbers of 64 bits always are; of floating point numbers it is assumed where
it is needed, since their texts are read with less than full precision.
-/

namespace SkillEngine

namespace Json

/-- The text goes on with nothing that could belong to a number. -/
def EndsNumber (rest : List Char) : Prop :=
  ∀ c ∈ rest.head?, c.isDigit = false ∧ c ≠ '.' ∧ c ≠ 'e' ∧ c ≠ 'E'

theorem endsNumber_cons {c : Char} (rest : List Char)
    (h : c.isDigit = false ∧ c ≠ '.' ∧ c ≠ 'e' ∧ c ≠ 'E') :
    EndsNumber (c :: rest) := by
  intro other hother
  obtain rfl : c = other := by simpa using hother
  exact h

theorem EndsNumber.leadingDigits {rest : List Char} (h : EndsNumber rest) :
    leadingDigits rest = [] := by
  cases rest with
  | nil => rfl
  | cons c rest => simp [Json.leadingDigits, (h c rfl).1]

theorem EndsNumber.behindDigits {rest : List Char} (h : EndsNumber rest) :
    behindDigits rest = rest := by
  cases rest with
  | nil => rfl
  | cons c rest => simp [Json.behindDigits, (h c rfl).1]

variable {rest : List Char}

theorem leadingDigits_append (hends : EndsNumber rest) (text : List Char) :
    leadingDigits (text ++ rest) = leadingDigits text := by
  induction text with
  | nil => exact hends.leadingDigits
  | cons c text ih =>
      rw [leadingDigits, leadingDigits] at ih ⊢
      rw [List.cons_append, List.takeWhile_cons, List.takeWhile_cons, ih]

theorem behindDigits_append (hends : EndsNumber rest) (text : List Char) :
    behindDigits (text ++ rest) = behindDigits text ++ rest := by
  induction text with
  | nil => exact hends.behindDigits
  | cons c text ih =>
      rw [behindDigits, behindDigits] at ih ⊢
      rw [List.cons_append, List.dropWhile_cons, List.dropWhile_cons, ih]
      split <;> rfl

/-! ## The parts of a literal in a longer text -/

theorem fraction_append (hends : EndsNumber rest) {text left : List Char}
    {written : Option (List Char)} (h : fraction text = some (written, left)) :
    fraction (text ++ rest) = some (written, left ++ rest) := by
  unfold fraction at h
  split at h
  next behind =>
    split at h
    · simp at h
    next hdigits =>
      rw [Option.some.injEq, Prod.mk.injEq] at h
      obtain ⟨rfl, rfl⟩ := h
      rw [List.cons_append, fraction, leadingDigits_append hends, if_neg hdigits,
        behindDigits_append hends]
  next hpoint =>
    rw [Option.some.injEq, Prod.mk.injEq] at h
    obtain ⟨rfl, rfl⟩ := h
    rw [fraction]
    intro behind heq
    cases text with
    | nil =>
        rw [List.nil_append] at heq
        exact (hends '.' (by simp [heq])).2.1 rfl
    | cons c text =>
        obtain ⟨rfl, -⟩ := List.cons.inj heq
        exact hpoint text rfl

theorem exponentSign_append {text : List Char}
    (h : leadingDigits (exponentSign text).2 ≠ []) (rest : List Char) :
    exponentSign (text ++ rest) =
      ((exponentSign text).1, (exponentSign text).2 ++ rest) := by
  cases text with
  | nil => simp [exponentSign, leadingDigits] at h
  | cons c text =>
      by_cases hminus : c = '-'
      · subst hminus
        rfl
      · by_cases hplus : c = '+'
        · subst hplus
          rfl
        · simp [exponentSign, hminus, hplus]

theorem exponent_append (hends : EndsNumber rest) {text left : List Char}
    {written : Option (Bool × List Char)}
    (h : exponent text = some (written, left)) :
    exponent (text ++ rest) = some (written, left ++ rest) := by
  cases text with
  | nil =>
      rw [exponent, Option.some.injEq, Prod.mk.injEq] at h
      obtain ⟨rfl, rfl⟩ := h
      cases rest with
      | nil => rfl
      | cons c rest =>
          obtain ⟨-, -, hsmall, hcapital⟩ := hends c rfl
          simp [exponent, hsmall, hcapital]
  | cons c text =>
      rw [exponent] at h
      rw [List.cons_append, exponent]
      split at h
      next hletter =>
        rw [if_pos hletter]
        simp only [List.isEmpty_iff] at h ⊢
        split at h
        · simp at h
        next hdigits =>
          rw [Option.some.injEq, Prod.mk.injEq] at h
          obtain ⟨rfl, rfl⟩ := h
          rw [exponentSign_append hdigits]
          simp only [leadingDigits_append hends, if_neg hdigits,
            behindDigits_append hends]
      next hletter =>
        rw [if_neg hletter]
        rw [Option.some.injEq, Prod.mk.injEq] at h
        obtain ⟨rfl, rfl⟩ := h
        rfl

theorem literal_append (hends : EndsNumber rest) {negative : Bool}
    {text left : List Char} {found : NumberLiteral}
    (h : literal negative text = some (found, left)) :
    literal negative (text ++ rest) = some (found, left ++ rest) := by
  rw [literal] at h ⊢
  simp only [leadingDigits_append hends, behindDigits_append hends] at h ⊢
  split at h
  · simp at h
  next hwhole =>
    rw [if_neg hwhole]
    cases hfraction : fraction (behindDigits text) with
    | none => simp [hfraction] at h
    | some found =>
        obtain ⟨decimals, behind⟩ := found
        simp only [hfraction, Option.bind_eq_bind, Option.bind_some] at h
        rw [fraction_append hends hfraction]
        cases hexponent : exponent behind with
        | none => simp [hexponent] at h
        | some found =>
            obtain ⟨scale, behind⟩ := found
            simp only [hexponent, Option.bind_some, Option.some.injEq,
              Prod.mk.injEq] at h
            obtain ⟨rfl, rfl⟩ := h
            simp [exponent_append hends hexponent]

/-- The literal of a number with its sign. -/
def signedLiteral (text : List Char) : Option (NumberLiteral × List Char) :=
  match text with
  | '-' :: rest => literal true rest
  | _ => literal false text

theorem number?_eq (text : List Char) :
    number? text = (signedLiteral text).bind fun found =>
      found.1.value?.map fun value => (number value, found.2) := by
  unfold number? signedLiteral
  split
  all_goals
    simp only [Option.bind_eq_bind, Option.map_eq_bind]
    rfl

theorem signedLiteral_append (hends : EndsNumber rest) {text left : List Char}
    {found : NumberLiteral} (h : signedLiteral text = some (found, left)) :
    signedLiteral (text ++ rest) = some (found, left ++ rest) := by
  cases text with
  | nil => simp [signedLiteral, literal, leadingDigits] at h
  | cons c text =>
      by_cases hminus : c = '-'
      · subst hminus
        exact literal_append hends h
      · have hsigned : ∀ more, signedLiteral (c :: more) =
            literal false (c :: more) := by
          intro more
          simp [signedLiteral, hminus]
        rw [hsigned] at h
        rw [List.cons_append, hsigned, ← List.cons_append]
        exact literal_append hends h

/-- A number at the front of a text is at the front of a longer one. -/
theorem number?_append (hends : EndsNumber rest) {text left : List Char}
    {value : Json} (h : number? text = some (value, left)) :
    number? (text ++ rest) = some (value, left ++ rest) := by
  rw [number?_eq] at h ⊢
  cases hfound : signedLiteral text with
  | none => simp [hfound] at h
  | some found =>
      obtain ⟨found, behind⟩ := found
      rw [signedLiteral_append hends hfound]
      rw [hfound] at h
      simp only [Option.bind_some, Option.map_eq_some_iff, Prod.mk.injEq] at h ⊢
      obtain ⟨number, hnumber, rfl, rfl⟩ := h
      exact ⟨number, hnumber, rfl, rfl⟩

/-- A number starts with a minus sign or a digit. -/
theorem head_of_number? {text left : List Char} {value : Json}
    (h : number? text = some (value, left)) :
    ∃ c more, text = c :: more ∧ (c = '-' ∨ c.isDigit = true) := by
  cases text with
  | nil => simp [number?_eq, signedLiteral, literal, leadingDigits] at h
  | cons c text =>
      refine ⟨c, text, rfl, ?_⟩
      by_contra hhead
      obtain ⟨hminus, hdigit⟩ := not_or.mp hhead
      simp [number?_eq, signedLiteral, literal, leadingDigits, hminus,
        hdigit] at h

/-! ## Whole numbers -/

theorem head_toDigits {value : Nat} (hpos : 0 < value) :
    (Nat.toDigits 10 value).head? ≠ some '0' := by
  induction value using Nat.strongRecOn with
  | ind value ih =>
      by_cases hsmall : value < 10
      · have hdigit : ∀ digit < 10, 0 < digit →
            [Nat.digitChar digit].head? ≠ some '0' := by decide
        rw [Nat.toDigits_of_lt_base hsmall]
        exact hdigit value hsmall hpos
      · rw [Nat.toDigits_of_base_le (by decide) (by omega)]
        have hhead := ih (value / 10) (by omega) (by omega)
        cases hdigits : Nat.toDigits 10 (value / 10) with
        | nil => exact absurd hdigits Nat.toDigits_ne_nil
        | cons digit digits => simpa [hdigits] using hhead

theorem leadingDigits_toDigits (value : Nat) :
    leadingDigits (Nat.toDigits 10 value) = Nat.toDigits 10 value := by
  rw [leadingDigits, List.takeWhile_eq_self_iff]
  exact fun c hc => Nat.isDigit_of_mem_toDigits (by decide) (by decide) hc

theorem behindDigits_toDigits (value : Nat) :
    behindDigits (Nat.toDigits 10 value) = [] := by
  rw [behindDigits, List.dropWhile_eq_nil_iff]
  exact fun c hc => Nat.isDigit_of_mem_toDigits (by decide) (by decide) hc

theorem literal_toDigits (negative : Bool) (value : Nat) :
    literal negative (Nat.toDigits 10 value) =
      some (⟨negative, Nat.toDigits 10 value, none, none⟩, []) := by
  have hne : (Nat.toDigits 10 value).isEmpty = false := by
    simp [List.isEmpty_eq_false_iff, Nat.toDigits_ne_nil]
  have hzero : ((Nat.toDigits 10 value).head? == some '0' &&
      decide (1 < (Nat.toDigits 10 value).length)) = false := by
    rcases Nat.eq_zero_or_pos value with rfl | hpos
    · decide
    · simp [head_toDigits hpos]
  rw [literal]
  simp only [leadingDigits_toDigits, behindDigits_toDigits, hne, hzero]
  rfl

theorem signedLiteral_toDigits (value : Nat) :
    signedLiteral (Nat.toDigits 10 value) =
      some (⟨false, Nat.toDigits 10 value, none, none⟩, []) := by
  rw [← literal_toDigits]
  cases hdigits : Nat.toDigits 10 value with
  | nil => exact absurd hdigits Nat.toDigits_ne_nil
  | cons digit digits =>
      have hdigit : digit.isDigit = true :=
        Nat.isDigit_of_mem_toDigits (b := 10) (n := value) (by decide)
          (by decide) (by simp [hdigits])
      have hminus : digit ≠ '-' := by
        rintro rfl
        contradiction
      simp [signedLiteral, hminus]

theorem value?_toDigits_of_lt {value : Nat}
    (h : value < NumberLiteral.wordLimit) :
    NumberLiteral.value? ⟨false, Nat.toDigits 10 value, none, none⟩ =
      some (.integer value) := by
  simp only [NumberLiteral.value?, Nat.ofDigitChars_ten_toDigits,
    Bool.false_eq_true, if_false, if_pos h]

theorem value?_toDigits_of_le {value : Nat} (hpos : 0 < value)
    (h : value ≤ NumberLiteral.wordLimit / 2) :
    NumberLiteral.value? ⟨true, Nat.toDigits 10 value, none, none⟩ =
      some (.integer (-value)) := by
  have hfits : (decide (0 < value) &&
      decide (value ≤ NumberLiteral.wordLimit / 2)) = true := by
    simp [hpos, h]
  simp only [NumberLiteral.value?, Nat.ofDigitChars_ten_toDigits, if_true,
    if_pos hfits]

/-- A whole number of 64 bits is read back from its text. -/
theorem number?_intText {value : Int} (hfits : Codec.fitsWord value = true) :
    number? (intText value) = some (.number (.integer value), []) := by
  have hhalf : NumberLiteral.wordLimit / 2 = twoTo 63 := by decide
  rw [Codec.fitsWord, Bool.and_eq_true, decide_eq_true_eq,
    decide_eq_true_eq] at hfits
  obtain ⟨hlow, hhigh⟩ := hfits
  rw [number?_eq, intText]
  by_cases hnegative : value < 0
  · have hliteral : signedLiteral
        (['-'] ++ Nat.toDigits 10 value.natAbs) =
          literal true (Nat.toDigits 10 value.natAbs) := rfl
    have habs : value.natAbs ≤ NumberLiteral.wordLimit / 2 := by
      rw [hhalf]
      omega
    rw [if_pos hnegative, hliteral, literal_toDigits, Option.bind_some,
      value?_toDigits_of_le (by omega) habs]
    simp [Int.ofNat_natAbs_of_nonpos hnegative.le]
  · have hword : value.natAbs < NumberLiteral.wordLimit := by
      rw [NumberLiteral.wordLimit]
      omega
    rw [if_neg hnegative, List.nil_append, signedLiteral_toDigits,
      Option.bind_some, value?_toDigits_of_lt hword]
    simp [Int.natAbs_of_nonneg (not_lt.mp hnegative)]

end Json

end SkillEngine
