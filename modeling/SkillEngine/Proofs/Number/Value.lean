import SkillEngine.Proofs.Number.Conversion

/-!
# What numbers denote

A finite number denotes a rational number.  Two finite numbers that denote the
same are one number, except that zero is denoted with either sign.  Whether a
number is whole is seen by a division of its ratio, and a whole number that fits
64 bits is what the number is converted to.
-/

namespace SkillEngine.Floating

variable {format : FloatFormat} {x y : Floating format}

/-- The rational number that a finite number denotes. -/
def rational (x : Floating format) : ℚ :=
  if x.negative then -x.value else x.value

theorem value_nonneg (x : Floating format) : 0 ≤ x.value := by
  rw [value]
  positivity

theorem abs_rational (x : Floating format) : |x.rational| = x.value := by
  rw [rational]
  split
  · rw [abs_neg, abs_of_nonneg x.value_nonneg]
  · exact abs_of_nonneg x.value_nonneg

theorem value_pos (hne : x.rational ≠ 0) : 0 < x.value := by
  rw [← abs_rational]
  exact abs_pos.mpr hne

theorem numerator_pos (hne : x.rational ≠ 0) : 0 < x.numerator := by
  rw [Nat.pos_iff_ne_zero]
  intro hzero
  have hpos := value_pos hne
  rw [value, hzero] at hpos
  simp at hpos

theorem negative_eq_decide (hne : x.rational ≠ 0) :
    x.negative = decide (x.rational < 0) := by
  have hpos := value_pos hne
  rw [rational]
  cases x.negative with
  | false => simpa using hpos.le
  | true => simpa using hpos

/-- Numbers that denote the same number are the same, unless it is zero. -/
theorem eq_of_rational_eq (hx : x.isFinite = true) (hy : y.isFinite = true)
    (h : x.rational = y.rational) (hne : x.rational ≠ 0) : x = y := by
  have hvalue : x.value = y.value := by
    rw [← abs_rational, ← abs_rational, h]
  have hnegative : x.negative = y.negative := by
    rw [negative_eq_decide hne, negative_eq_decide (h ▸ hne), h]
  -- Either number is what its own ratio is rounded to, and so is the other.
  calc x = ofRatio x.negative x.numerator x.denominator :=
        (ofRatio_eq hx (numerator_pos hne) x.denominator_pos rfl).symm
    _ = ofRatio y.negative x.numerator x.denominator := by rw [hnegative]
    _ = y := ofRatio_eq hy (numerator_pos hne) x.denominator_pos hvalue

/-! ## Whole numbers -/

theorem value_eq_natCast_iff {n : Nat} :
    x.value = n ↔ x.numerator = n * x.denominator := by
  have hne : (x.denominator : ℚ) ≠ 0 := by
    exact_mod_cast x.denominator_pos.ne'
  rw [value, div_eq_iff hne]
  exact_mod_cast Iff.rfl

theorem rational_of_multiple {n : Nat} (h : x.numerator = n * x.denominator) :
    x.rational = ((if x.negative then -n else n : Int) : ℚ) := by
  rw [rational, value_eq_natCast_iff.mpr h]
  split <;> simp

theorem toInt?_of_multiple (hfinite : x.isFinite = true) {n : Nat}
    (h : x.numerator = n * x.denominator) :
    x.toInt? = some (if x.negative then -n else n : Int) := by
  have hquotient : x.numerator / x.denominator = n := by
    rw [h, Nat.mul_div_cancel _ x.denominator_pos]
  have hremainder : x.numerator % x.denominator = 0 := by
    rw [h, Nat.mul_mod_left]
  simp [toInt?, hfinite, hquotient, hremainder]

/-- A number is recognised as whole exactly when it denotes a whole number. -/
theorem toInt?_eq_some_iff (hfinite : x.isFinite = true) {n : Int} :
    x.toInt? = some n ↔ x.rational = n := by
  constructor
  · intro h
    have hremainder : x.numerator % x.denominator = 0 := by
      by_contra hremainder
      simp [toInt?, hremainder] at h
    have hmultiple : x.numerator =
        x.numerator / x.denominator * x.denominator :=
      (Nat.div_mul_cancel (Nat.dvd_of_mod_eq_zero hremainder)).symm
    rw [toInt?_of_multiple hfinite hmultiple, Option.some.injEq] at h
    rw [rational_of_multiple hmultiple, h]
  · intro h
    have hvalue : x.value = n.natAbs := by
      rw [← abs_rational, h, Nat.cast_natAbs, Int.cast_abs]
    have hmultiple := value_eq_natCast_iff.mp hvalue
    have hdenoted := rational_of_multiple hmultiple
    rw [h, Int.cast_inj] at hdenoted
    rw [toInt?_of_multiple hfinite hmultiple, ← hdenoted]

/-- A rational number without its fraction. -/
def wholePart (number : ℚ) : Int :=
  if number < 0 then ⌈number⌉ else ⌊number⌋

theorem wholePart_intCast (n : Int) : wholePart n = n := by
  rw [wholePart, Int.ceil_intCast, Int.floor_intCast, ite_self]

/-- The whole number of 64 bits to which a number is converted: a fraction is
dropped, beyond the greatest and the least whole number the conversion stays
there, and what is not a number becomes zero. -/
def toInt64 (x : Floating format) : Int64 :=
  if x.isNaN then 0
  else if x.isFinite then .ofIntClamp (wholePart x.rational)
  else if x.negative then .minValue else .maxValue

/-- The conversion of a whole number that fits 64 bits is exact. -/
theorem toInt_toInt64 (hfinite : x.isFinite = true) {n : Int}
    (h : x.rational = n) (hlow : -2 ^ 63 ≤ n) (hhigh : n < 2 ^ 63) :
    x.toInt64.toInt = n := by
  rw [toInt64, isNaN_of_finite hfinite, if_neg Bool.false_ne_true,
    if_pos hfinite, h, wholePart_intCast]
  exact Int64.toInt_ofIntClamp hlow (Int.le_of_lt_add_one hhigh)

end SkillEngine.Floating
