import SkillEngine.Codec.Basic
import SkillEngine.Proofs.Number.Value
import SkillEngine.Template.StringForm

/-!
# The texts of numbers

A whole number can stand in a document as an integer or as a double, and zero
even as two doubles.  Below `10 ^ 15` all of these have one text, because a
double that is whole is shown as the integer to which it is converted.  A number
with a fraction is denoted by one double only, so nothing is left to agree on.

From the limit on the law fails: there a double keeps its point.
-/

namespace SkillEngine

namespace Number

/-- The number stands for a rational number: it is an integer of 64 bits, with
or without a sign, or a finite double. -/
inductive Denotes : Number → ℚ → Prop where
  | integer {n : Int} (hfits : Codec.fitsWord n = true) :
      Denotes (.integer n) n
  | double {x : Double} (hfinite : x.isFinite = true) :
      Denotes (.double x) x.rational

theorem denotes_integer_iff {n : Int} {number : ℚ} :
    Denotes (.integer n) number ↔
      Codec.fitsWord n = true ∧ (n : ℚ) = number := by
  constructor
  · intro h
    cases h with
    | integer hfits => exact ⟨hfits, rfl⟩
  · rintro ⟨hfits, rfl⟩
    exact .integer hfits

theorem denotes_double_iff {x : Double} {number : ℚ} :
    Denotes (.double x) number ↔ x.isFinite = true ∧ x.rational = number := by
  constructor
  · intro h
    cases h with
    | double hfinite => exact ⟨hfinite, rfl⟩
  · rintro ⟨hfinite, rfl⟩
    exact .double hfinite

variable {a b : Number} {number : ℚ}

/-- A number that is not whole is denoted in one way. -/
theorem eq_of_denotes (ha : a.Denotes number) (hb : b.Denotes number)
    (hfraction : ∀ n : Int, number ≠ n) : a = b := by
  cases a with
  | integer n => exact absurd (denotes_integer_iff.mp ha).2.symm (hfraction n)
  | single x => nomatch ha
  | double x =>
      cases b with
      | integer n =>
          exact absurd (denotes_integer_iff.mp hb).2.symm (hfraction n)
      | single y => nomatch hb
      | double y =>
          obtain ⟨hx, rfl⟩ := denotes_double_iff.mp ha
          obtain ⟨hy, heq⟩ := denotes_double_iff.mp hb
          have hne : x.rational ≠ 0 := by exact_mod_cast hfraction 0
          rw [Floating.eq_of_rational_eq hx hy heq.symm hne]

end Number

namespace Json

/-! ## Whole numbers -/

/-- The text is that of a whole number: its digits, behind a sign if it is below
zero, and nothing else. -/
structure ShowsWhole (text : String) (n : Int) : Prop where
  text_eq : text = toString n
  digits : ∃ digits, text.toList = (if n < 0 then ['-'] else []) ++ digits ∧
    ∀ c ∈ digits, c.isDigit = true

theorem ofList_intText (n : Int) : String.ofList (intText n) = toString n := by
  cases n with
  | ofNat m =>
      have hnonneg : ¬Int.ofNat m < 0 := by simp
      rw [intText, if_neg hnonneg]
      exact Nat.repr_eq_ofList_toDigits.symm
  | negSucc m =>
      have hnegative : Int.negSucc m < 0 := Int.negSucc_lt_zero m
      rw [intText, if_pos hnegative, String.ofList_append]
      exact congrArg ("-" ++ ·) Nat.repr_eq_ofList_toDigits.symm

theorem showsWhole_intText (n : Int) :
    ShowsWhole (String.ofList (intText n)) n where
  text_eq := ofList_intText n
  digits := by
    refine ⟨Nat.toDigits 10 n.natAbs, String.toList_ofList, fun c hc => ?_⟩
    exact Nat.isDigit_of_mem_toDigits (by decide) (by decide) hc

theorem den_eq_one_iff {number : ℚ} :
    number.den = 1 ↔ ∃ n : Int, number = n := by
  constructor
  · exact fun h => ⟨number.num, ((Rat.den_eq_one_iff number).mp h).symm⟩
  · rintro ⟨n, rfl⟩
    exact Rat.den_intCast n

theorem abs_lt_wholeLimit_iff {n : Int} :
    |(n : ℚ)| < 10 ^ 15 ↔ n.natAbs < wholeLimit := by
  have hlimit : (10 : ℚ) ^ 15 = (wholeLimit : Nat) := by
    norm_num [wholeLimit, tenTo]
  rw [hlimit, ← Int.cast_abs, ← Nat.cast_natAbs, Nat.cast_lt]

variable {x : Double} {n : Int}

/-- A whole double below the limit fits 64 bits, so it is converted exactly. -/
theorem toInt_toInt64_of_lt (hfinite : x.isFinite = true)
    (hwhole : x.rational = n) (hsmall : n.natAbs < wholeLimit) :
    x.toInt64.toInt = n := by
  have hlimit : wholeLimit < 2 ^ 63 := by decide
  exact Floating.toInt_toInt64 hfinite hwhole (by omega) (by omega)

/-- A whole double below the limit is shown as the integer to which it is
converted, and every other double as it is written in a document. -/
theorem numberForm_double (hfinite : x.isFinite = true) :
    numberForm (.double x) =
      if x.rational.den = 1 ∧ |x.rational| < 10 ^ 15 then
        intText x.toInt64.toInt
      else numberText (.double x) := by
  by_cases hwhole : x.rational.den = 1
  · obtain ⟨n, hn⟩ := den_eq_one_iff.mp hwhole
    have hform : numberForm (.double x) = if n.natAbs < wholeLimit then
        intText n else numberText (.double x) := by
      simp only [numberForm, (Floating.toInt?_eq_some_iff hfinite).mpr hn]
    have hlimit : |x.rational| < 10 ^ 15 ↔ n.natAbs < wholeLimit := by
      rw [hn, abs_lt_wholeLimit_iff]
    by_cases hsmall : n.natAbs < wholeLimit
    · rw [hform, if_pos hsmall, if_pos ⟨hwhole, hlimit.mpr hsmall⟩,
        toInt_toInt64_of_lt hfinite hn hsmall]
    · rw [hform, if_neg hsmall, if_neg fun h => hsmall (hlimit.mp h.2)]
  · have hnone : x.toInt? = none := by
      rw [Option.eq_none_iff_forall_ne_some]
      intro n hn
      exact hwhole (den_eq_one_iff.mpr
        ⟨n, (Floating.toInt?_eq_some_iff hfinite).mp hn⟩)
    rw [if_neg fun h => hwhole h.1]
    simp only [numberForm, hnone]

/-- However a whole number below the limit is put, its text is that of the
integer. -/
theorem numberForm_of_whole {a : Number} (h : a.Denotes n)
    (hsmall : n.natAbs < wholeLimit) : numberForm a = intText n := by
  cases a with
  | integer m =>
      obtain ⟨-, hm⟩ := Number.denotes_integer_iff.mp h
      obtain rfl := Int.cast_injective hm
      rfl
  | single x => nomatch h
  | double x =>
      obtain ⟨hfinite, hn⟩ := Number.denotes_double_iff.mp h
      have hcondition : x.rational.den = 1 ∧ |x.rational| < 10 ^ 15 := by
        rw [hn, abs_lt_wholeLimit_iff]
        exact ⟨Rat.den_intCast n, hsmall⟩
      rw [numberForm_double hfinite, if_pos hcondition,
        toInt_toInt64_of_lt hfinite hn hsmall]

/-! ## Equal numbers -/

/-- Numbers that denote the same number below the limit have the same text, and
if the number is whole then the text is that of an integer, to which a double is
converted exactly. -/
theorem formString_of_denotes {a b : Number} {number : ℚ}
    (ha : a.Denotes number) (hb : b.Denotes number)
    (hsmall : |number| < 10 ^ 15) :
    (Json.number a).formString = (Json.number b).formString ∧
      ∀ n : Int, number = n →
        ShowsWhole (Json.number a).formString n ∧
          ∀ x, a = .double x → x.toInt64.toInt = n := by
  by_cases hwhole : ∃ n : Int, number = n
  · obtain ⟨n, rfl⟩ := hwhole
    have hlimit := abs_lt_wholeLimit_iff.mp hsmall
    have htext : ∀ c : Number, c.Denotes n →
        (Json.number c).formString = String.ofList (intText n) :=
      fun c hc => congrArg String.ofList (numberForm_of_whole hc hlimit)
    refine ⟨(htext a ha).trans (htext b hb).symm, fun m hm => ?_⟩
    obtain rfl := Int.cast_injective hm
    refine ⟨htext a ha ▸ showsWhole_intText n, ?_⟩
    rintro x rfl
    obtain ⟨hfinite, hn⟩ := Number.denotes_double_iff.mp ha
    exact toInt_toInt64_of_lt hfinite hn hlimit
  · -- Between whole numbers there is only one number to show.
    rw [not_exists] at hwhole
    refine ⟨by rw [Number.eq_of_denotes ha hb hwhole], fun n hn => ?_⟩
    exact absurd hn (hwhole n)

/-- The least whole number above the limit on the other side of zero. -/
theorem formString_least_whole :
    let x : Double := .ofInt (-999999999999999)
    let n : Int := -999999999999999
    Number.Denotes (.double x) n ∧ Number.Denotes (.integer n) n ∧
      |(n : ℚ)| < 10 ^ 15 ∧
      (Json.number (.double x)).formString =
        (Json.number (.integer n)).formString ∧
      ShowsWhole (Json.number (.double x)).formString n ∧
      x.toInt64.toInt = n := by
  intro x n
  have hx : Number.Denotes (.double x) n :=
    Number.denotes_double_iff.mpr ⟨by decide +kernel, by decide +kernel⟩
  have hn : Number.Denotes (.integer n) n := .integer (by decide)
  have hsmall : |(n : ℚ)| < 10 ^ 15 := abs_lt_wholeLimit_iff.mpr (by decide)
  obtain ⟨htext, hwhole⟩ := formString_of_denotes hx hn hsmall
  obtain ⟨hshown, hconverted⟩ := hwhole n rfl
  exact ⟨hx, hn, hsmall, htext, hshown, hconverted x rfl⟩

example : (Json.number (.double (.zero true))).formString = "0" := by
  decide +kernel

example : (Json.number (.integer (10 ^ 15))).formString ≠
    (Json.number (.double (.ofInt (10 ^ 15)))).formString := by
  decide +kernel

end Json

end SkillEngine
