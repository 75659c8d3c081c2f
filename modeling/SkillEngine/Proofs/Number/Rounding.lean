import Mathlib.Algebra.Order.Field.Power
import Mathlib.Data.Int.Log
import Mathlib.Data.Rat.Floor
import Mathlib.Tactic.FieldSimp
import Mathlib.Tactic.Linarith
import Mathlib.Tactic.Positivity
import Mathlib.Tactic.Ring
import SkillEngine.Number.Floating

/-!
# Rounding of numbers that a format has

A ratio that is a number of the format rounds to that number.  The operations
on formats compute with natural numbers; here the ratios are rational numbers,
so that the exponent of the leading digit is a logarithm and the last place a
power of two.
-/

namespace SkillEngine

theorem twoTo_eq (exponent : Nat) : twoTo exponent = 2 ^ exponent := rfl

/-- A power of two is the quotient of the two powers that stand for it. -/
theorem twoTo_div_twoTo (exponent : Int) :
    (twoTo exponent.toNat : ℚ) / twoTo (-exponent).toNat = 2 ^ exponent := by
  simp only [twoTo_eq, Nat.cast_pow, Nat.cast_ofNat]
  rcases le_total 0 exponent with hle | hle
  · obtain ⟨n, rfl⟩ := Int.eq_ofNat_of_zero_le hle
    simp
  · obtain ⟨n, hn⟩ := Int.eq_ofNat_of_zero_le (neg_nonneg.mpr hle)
    obtain rfl : exponent = -n := by omega
    simp

/-- A ratio that is scaled to the units of a place. -/
theorem scaled_eq (numerator denominator : Nat) (place : Int) :
    ((numerator * twoTo (-place).toNat : Nat) : ℚ) /
        (denominator * twoTo place.toNat : Nat) =
      (numerator / denominator : ℚ) / 2 ^ place := by
  rw [← twoTo_div_twoTo]
  push_cast
  have hplace : (twoTo place.toNat : ℚ) ≠ 0 := by
    exact_mod_cast (twoTo_pos _).ne'
  have hplace' : (twoTo (-place).toNat : ℚ) ≠ 0 := by
    exact_mod_cast (twoTo_pos _).ne'
  field_simp

theorem log_eq {ratio : ℚ} {exponent : Int}
    (hle : 2 ^ exponent ≤ ratio) (hlt : ratio < 2 ^ (exponent + 1)) :
    Int.log 2 ratio = exponent := by
  have hpos : 0 < ratio := lt_of_lt_of_le (by positivity) hle
  apply le_antisymm
  · have := (Int.lt_zpow_iff_log_lt Nat.one_lt_two hpos).mp hlt
    omega
  · exact (Int.zpow_le_iff_le_log Nat.one_lt_two hpos).mp hle

theorem roundHalfEven_of_eq_mul {numerator denominator quotient : Nat}
    (hpos : 0 < denominator) (h : numerator = quotient * denominator) :
    roundHalfEven numerator denominator = quotient := by
  subst h
  simp [roundHalfEven, Nat.mul_div_cancel _ hpos, hpos.ne]

theorem roundHalfEven_le {numerator denominator limit : Nat}
    (hpos : 0 < denominator) (h : (numerator / denominator : ℚ) < limit) :
    roundHalfEven numerator denominator ≤ limit := by
  have hbelow : numerator < limit * denominator := by
    rw [div_lt_iff₀ (by exact_mod_cast hpos)] at h
    exact_mod_cast h
  have hquotient : numerator / denominator < limit :=
    Nat.div_lt_of_lt_mul (by rwa [mul_comm] at hbelow)
  rw [roundHalfEven]
  split <;> omega

namespace Floating

variable {format : FloatFormat}

theorem log2_bounds {n : Nat} (hpos : 0 < n) :
    (2 : ℚ) ^ (n.log2 : Int) ≤ n ∧ (n : ℚ) < 2 ^ ((n.log2 : Int) + 1) := by
  constructor
  · rw [zpow_natCast]
    exact_mod_cast Nat.log2_self_le hpos.ne'
  · rw [← Nat.cast_succ, zpow_natCast]
    exact_mod_cast Nat.lt_log2_self

/-- A ratio is within a factor of two of the quotient of the powers below its
parts. -/
theorem ratio_bounds {numerator denominator : Nat}
    (hnumerator : 0 < numerator) (hdenominator : 0 < denominator) :
    let guess : Int := numerator.log2 - denominator.log2
    (2 : ℚ) ^ (guess - 1) ≤ numerator / denominator ∧
      (numerator / denominator : ℚ) < 2 ^ (guess + 1) := by
  intro guess
  have hpositive : (0 : ℚ) < denominator := by exact_mod_cast hdenominator
  obtain ⟨hnle, hnlt⟩ := log2_bounds hnumerator
  obtain ⟨hdle, hdlt⟩ := log2_bounds hdenominator
  constructor
  · rw [le_div_iff₀ hpositive]
    calc (2 : ℚ) ^ (guess - 1) * denominator
        ≤ 2 ^ (guess - 1) * 2 ^ ((denominator.log2 : Int) + 1) := by gcongr
      _ = 2 ^ (numerator.log2 : Int) := by
        rw [← zpow_add₀ two_ne_zero]
        congr 1
        omega
      _ ≤ numerator := hnle
  · rw [div_lt_iff₀ hpositive]
    calc (numerator : ℚ) < 2 ^ ((numerator.log2 : Int) + 1) := hnlt
      _ = 2 ^ (guess + 1) * 2 ^ (denominator.log2 : Int) := by
        rw [← zpow_add₀ two_ne_zero]
        congr 1
        omega
      _ ≤ 2 ^ (guess + 1) * denominator := by gcongr

/-- Comparing a ratio with a power of two by whole numbers. -/
theorem scaled_lt_iff (numerator : Nat) {denominator : Nat}
    (hdenominator : 0 < denominator) (exponent : Int) :
    numerator * twoTo (-exponent).toNat < denominator * twoTo exponent.toNat ↔
      (numerator / denominator : ℚ) < 2 ^ exponent := by
  have hscale : (0 : ℚ) < (denominator * twoTo exponent.toNat : Nat) := by
    exact_mod_cast Nat.mul_pos hdenominator (twoTo_pos _)
  have hpower : (0 : ℚ) < 2 ^ exponent := by positivity
  rw [← div_lt_one hpower, ← scaled_eq, div_lt_one hscale, Nat.cast_lt]

/-- The exponent of the leading digit is a logarithm. -/
theorem leadingExponent_eq_log {numerator denominator : Nat}
    (hnumerator : 0 < numerator) (hdenominator : 0 < denominator) :
    leadingExponent numerator denominator =
      Int.log 2 (numerator / denominator : ℚ) := by
  obtain ⟨hbelow, habove⟩ := ratio_bounds hnumerator hdenominator
  have hcross := scaled_lt_iff numerator hdenominator
    (numerator.log2 - denominator.log2)
  rw [leadingExponent]
  -- The guess is off by one exactly when the ratio lies below its power.
  split
  next hlt =>
    refine (log_eq hbelow ?_).symm
    rw [sub_add_cancel]
    exact hcross.mp hlt
  next hge =>
    refine (log_eq ?_ habove).symm
    exact not_lt.mp (hge ∘ hcross.mpr)

/-! ## What a finite number denotes -/

/-- The absolute value of a finite number. -/
def value (x : Floating format) : ℚ := x.numerator / x.denominator

theorem value_eq (x : Floating format) :
    x.value = x.significand * 2 ^ x.exponent := by
  rw [value, numerator, denominator, ← twoTo_div_twoTo]
  push_cast
  rw [mul_div_assoc]

theorem denominator_pos (x : Floating format) : 0 < x.denominator :=
  twoTo_pos _

theorem magnitude_eq (x : Floating format) :
    x.magnitude.toNat =
      x.exponentField * twoTo format.fractionBits +
        x.magnitude.toNat % twoTo format.fractionBits := by
  rw [exponentField, mul_comm]
  exact (Nat.div_add_mod _ _).symm

theorem fraction_lt (x : Floating format) :
    x.magnitude.toNat % twoTo format.fractionBits <
      twoTo format.fractionBits :=
  Nat.mod_lt _ (twoTo_pos _)

theorem significand_lt (x : Floating format) :
    x.significand < 2 * twoTo format.fractionBits := by
  have hfraction := x.fraction_lt
  rw [significand]
  split <;> omega

/-- A number is subnormal, or its significand has a leading bit. -/
theorem exponent_cases (x : Floating format) :
    x.exponent = format.leastExponent ∨
      twoTo format.fractionBits ≤ x.significand ∧
        format.leastExponent ≤ x.exponent := by
  rw [significand, exponent]
  by_cases hfield : x.exponentField = 0
  · simp [hfield]
  · rw [if_neg hfield]
    exact .inr ⟨by omega, by omega⟩

/-- The bits of a number from its significand and its exponent. -/
theorem bits_eq (x : Floating format) :
    x.significand +
        (x.exponent - format.leastExponent).toNat * twoTo format.fractionBits =
      x.magnitude.toNat := by
  have hplace : (x.exponent - format.leastExponent).toNat =
      x.exponentField - 1 := by
    rw [exponent]
    omega
  have hmagnitude := x.magnitude_eq
  rw [hplace, significand]
  by_cases hfield : x.exponentField = 0
  · simp [hfield] at hmagnitude ⊢
    exact hmagnitude.symm
  · obtain ⟨field, hsucc⟩ := Nat.exists_eq_succ_of_ne_zero hfield
    rw [if_neg hfield, hsucc, Nat.succ_sub_one]
    rw [hsucc, Nat.succ_mul] at hmagnitude
    omega

/-! ## Ratios that a format has -/

/-- The last place of a ratio with few enough units. -/
theorem lastPlace_eq {numerator denominator units : Nat} {place : Int}
    (hnumerator : 0 < numerator) (hdenominator : 0 < denominator)
    (hvalue : (numerator / denominator : ℚ) = units * 2 ^ place)
    (hunits : units < 2 * twoTo format.fractionBits)
    (hplace : place = format.leastExponent ∨
      twoTo format.fractionBits ≤ units ∧ format.leastExponent ≤ place) :
    lastPlace format numerator denominator = place := by
  have hpos : (0 : ℚ) < numerator / denominator := by
    have : (0 : ℚ) < numerator := by exact_mod_cast hnumerator
    have : (0 : ℚ) < denominator := by exact_mod_cast hdenominator
    positivity
  have hlt : (numerator / denominator : ℚ) <
      2 ^ ((format.fractionBits : Int) + place + 1) := by
    have hcast : (units : ℚ) < 2 * 2 ^ format.fractionBits := by
      exact_mod_cast hunits
    rw [hvalue]
    calc (units : ℚ) * 2 ^ place
        < 2 * 2 ^ format.fractionBits * 2 ^ place := by gcongr
      _ = 2 ^ ((format.fractionBits : Int) + place + 1) := by
        rw [zpow_add₀ two_ne_zero, zpow_add₀ two_ne_zero, zpow_natCast]
        ring
  have hlog := (Int.lt_zpow_iff_log_lt Nat.one_lt_two hpos).mp hlt
  rw [lastPlace, leadingExponent_eq_log hnumerator hdenominator]
  rcases hplace with rfl | ⟨hle, hleast⟩
  · omega
  · have hge : (2 : ℚ) ^ ((format.fractionBits : Int) + place) ≤
        numerator / denominator := by
      have hcast : (2 : ℚ) ^ format.fractionBits ≤ units := by
        exact_mod_cast hle
      rw [hvalue, zpow_add₀ two_ne_zero, zpow_natCast]
      gcongr
    have hlog' := (Int.zpow_le_iff_le_log Nat.one_lt_two hpos).mp hge
    omega

/-- A ratio that is a multiple of its last place is not rounded. -/
theorem ofRatio_of_exact {numerator denominator units : Nat} {place : Int}
    (negative : Bool) (hnumerator : 0 < numerator)
    (hdenominator : 0 < denominator)
    (hplace : lastPlace format numerator denominator = place)
    (hvalue : (numerator / denominator : ℚ) = units * 2 ^ place) :
    (ofRatio negative numerator denominator : Floating format) =
      ⟨negative, BitVec.ofNat _ (min
        (units + (place - format.leastExponent).toNat *
          twoTo format.fractionBits)
        format.infinityBits)⟩ := by
  have hscale : 0 < denominator * twoTo place.toNat :=
    Nat.mul_pos hdenominator (twoTo_pos _)
  have hunits : numerator * twoTo (-place).toNat =
      units * (denominator * twoTo place.toNat) := by
    have hquotient := scaled_eq numerator denominator place
    have hpower : (2 : ℚ) ^ place ≠ 0 := by positivity
    rw [hvalue, mul_div_cancel_right₀ _ hpower,
      div_eq_iff (by exact_mod_cast hscale.ne')] at hquotient
    exact_mod_cast hquotient
  simp only [ofRatio, hplace, if_neg hnumerator.ne',
    roundHalfEven_of_eq_mul hscale hunits]

/-- A ratio that is a finite number of the format becomes that number. -/
theorem ofRatio_eq {x : Floating format} (hfinite : x.isFinite = true)
    {numerator denominator : Nat} (hnumerator : 0 < numerator)
    (hdenominator : 0 < denominator)
    (hvalue : (numerator / denominator : ℚ) = x.value) :
    ofRatio x.negative numerator denominator = x := by
  rw [value_eq] at hvalue
  have hplace := lastPlace_eq hnumerator hdenominator hvalue x.significand_lt
    x.exponent_cases
  rw [ofRatio_of_exact x.negative hnumerator hdenominator hplace hvalue,
    x.bits_eq]
  have hbound : x.magnitude.toNat ≤ format.infinityBits := by
    have : x.magnitude.toNat < format.infinityBits := by
      simpa [isFinite] using hfinite
    exact this.le
  rw [min_eq_left hbound, BitVec.ofNat_toNat, BitVec.setWidth_eq]

end Floating

end SkillEngine
