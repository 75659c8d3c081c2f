import SkillEngine.Proofs.Number.Rounding

/-!
# Conversions between formats

A finite number converted to its own format is the number itself.  A finite
number of single precision survives the way to double precision and back:
every such number has a place among the doubles, so that neither way rounds.
Whole numbers of 64 bits may be rounded to doubles, but not to infinity.
-/

namespace SkillEngine.Floating

variable {format : FloatFormat}

theorem isNaN_of_finite {x : Floating format} (hfinite : x.isFinite = true) :
    x.isNaN = false := by
  have hbits : x.magnitude.toNat < format.infinityBits := by
    simpa [isFinite] using hfinite
  simp [isNaN, hbits.le]

theorem convert_of_finite {other : FloatFormat} {x : Floating format}
    (hfinite : x.isFinite = true) :
    (x.convert : Floating other) =
      ofRatio x.negative x.numerator x.denominator := by
  simp [convert, isNaN_of_finite hfinite, hfinite]

theorem eq_zero_of_numerator {x : Floating format} (h : x.numerator = 0) :
    x = zero x.negative := by
  have hsignificand : x.significand = 0 := by
    rw [numerator] at h
    exact (Nat.mul_eq_zero.mp h).resolve_right (twoTo_pos _).ne'
  have hbits := x.bits_eq
  rw [hsignificand] at hbits
  have hplace : x.exponent = format.leastExponent := by
    rcases x.exponent_cases with hplace | ⟨hle, -⟩
    · exact hplace
    · have := twoTo_pos format.fractionBits
      omega
  have hmagnitude : x.magnitude.toNat = 0 := by
    simpa [hplace] using hbits.symm
  obtain ⟨negative, magnitude⟩ := x
  have : magnitude = 0 := BitVec.eq_of_toNat_eq (by simpa using hmagnitude)
  rw [this]
  rfl

theorem ofRatio_zero (negative : Bool) (denominator : Nat) :
    (ofRatio negative 0 denominator : Floating format) = zero negative := rfl

/-- A finite number is the number of its format nearest to it. -/
theorem convert_self {x : Floating format} (hfinite : x.isFinite = true) :
    x.convert = x := by
  rw [convert_of_finite hfinite]
  rcases Nat.eq_zero_or_pos x.numerator with hzero | hpos
  · rw [hzero, ofRatio_zero]
    exact (eq_zero_of_numerator hzero).symm
  · exact ofRatio_eq hfinite hpos x.denominator_pos rfl

/-! ## From single to double precision -/

/-- What the bits of a number with a leading bit denote. -/
theorem value_of_units {negative : Bool} {units : Nat} {place : Int}
    (hle : twoTo format.fractionBits ≤ units)
    (hlt : units < 2 * twoTo format.fractionBits)
    (hplace : format.leastExponent ≤ place)
    (hfits : units + (place - format.leastExponent).toNat *
      twoTo format.fractionBits < 2 ^ format.width) :
    (⟨negative, BitVec.ofNat _ (units +
      (place - format.leastExponent).toNat * twoTo format.fractionBits)⟩ :
        Floating format).value = units * 2 ^ place := by
  set steps := (place - format.leastExponent).toNat with hsteps
  set x : Floating format := ⟨negative, BitVec.ofNat _ (units +
    steps * twoTo format.fractionBits)⟩ with hx
  have hmagnitude : x.magnitude.toNat =
      units + steps * twoTo format.fractionBits := by
    simpa [hx, BitVec.toNat_ofNat] using Nat.mod_eq_of_lt hfits
  have hfield : x.exponentField = steps + 1 := by
    rw [exponentField, hmagnitude, Nat.add_mul_div_right _ _ (twoTo_pos _)]
    have : units / twoTo format.fractionBits = 1 :=
      Nat.div_eq_of_lt_le (by omega) (by omega)
    omega
  have hexponent : x.exponent = place := by
    rw [exponent, hfield]
    omega
  have hbits := x.bits_eq
  rw [hmagnitude, hexponent, ← hsteps] at hbits
  have hsignificand : x.significand = units := by omega
  rw [value_eq, hexponent, hsignificand]

theorem exponent_le_of_finite {x : Single} (hfinite : x.isFinite = true) :
    -149 ≤ x.exponent ∧ x.exponent ≤ 104 := by
  have hbits : x.magnitude.toNat < 255 * twoTo 23 :=
    of_decide_eq_true hfinite
  have hfield : x.exponentField < 255 :=
    Nat.div_lt_of_lt_mul (by rwa [mul_comm] at hbits)
  have hleast : FloatFormat.binary32.leastExponent = -149 := by decide
  rw [exponent, hleast]
  omega

/-- A significand moved up until its leading bit is that of a double. -/
theorem exists_shift {significand : Nat} (hpos : 0 < significand)
    (hlt : significand < 2 * twoTo 23) :
    ∃ shift, 29 ≤ shift ∧ shift ≤ 52 ∧
      twoTo 52 ≤ significand * 2 ^ shift ∧
      significand * 2 ^ shift < 2 * twoTo 52 := by
  have hlow := Nat.log2_self_le hpos.ne'
  have hhigh := Nat.lt_log2_self (n := significand)
  have hlog : significand.log2 < 24 := (Nat.log2_lt hpos.ne').mpr hlt
  have hsum : significand.log2 + (52 - significand.log2) = 52 := by omega
  refine ⟨52 - significand.log2, by omega, by omega, ?_, ?_⟩
  · calc twoTo 52 = 2 ^ significand.log2 * 2 ^ (52 - significand.log2) := by
          rw [← pow_add, hsum, twoTo_eq]
      _ ≤ significand * 2 ^ (52 - significand.log2) := by gcongr
  · calc significand * 2 ^ (52 - significand.log2)
        < 2 ^ (significand.log2 + 1) * 2 ^ (52 - significand.log2) := by gcongr
      _ = 2 * twoTo 52 := by
          rw [pow_succ, mul_right_comm, ← pow_add, hsum, twoTo_eq, mul_comm]

/-- A finite number of single precision as a double, which is finite and
denotes the same. -/
theorem widen {x : Single} (hfinite : x.isFinite = true)
    (hpos : 0 < x.numerator) :
    (x.convert : Double).isFinite = true ∧
      (x.convert : Double).negative = x.negative ∧
      (x.convert : Double).value = x.value := by
  have hsignificand : 0 < x.significand := by
    rw [numerator] at hpos
    exact Nat.pos_of_mul_pos_right hpos
  obtain ⟨hexponent, hexponent'⟩ := exponent_le_of_finite hfinite
  obtain ⟨shift, hshift, hshift', hle, hlt⟩ :=
    exists_shift hsignificand x.significand_lt
  set units := x.significand * 2 ^ shift with hunits
  set place := x.exponent - shift with hplace
  have hvalue : (x.numerator / x.denominator : ℚ) = units * 2 ^ place := by
    have hpower : (2 : ℚ) ^ place = 2 ^ x.exponent / 2 ^ shift := by
      rw [hplace, zpow_sub₀ two_ne_zero, zpow_natCast]
    have hne : (2 : ℚ) ^ shift ≠ 0 := by positivity
    have := x.value_eq
    rw [value] at this
    rw [this, hunits, hpower]
    push_cast
    field_simp
  have hleast : FloatFormat.binary64.leastExponent = -1074 := by decide
  have hinfinity : FloatFormat.binary64.infinityBits = 2047 * twoTo 52 := by
    decide
  have hlast : lastPlace .binary64 x.numerator x.denominator = place :=
    lastPlace_eq hpos x.denominator_pos hvalue hlt (.inr ⟨hle, by omega⟩)
  have hbits : units + (place - FloatFormat.binary64.leastExponent).toNat *
      twoTo 52 < 2047 * twoTo 52 := by
    have hsteps : (place - FloatFormat.binary64.leastExponent).toNat ≤ 1149 := by
      omega
    have := Nat.mul_le_mul_right (twoTo 52) hsteps
    omega
  have hfits : 2047 * twoTo 52 < 2 ^ FloatFormat.binary64.width := by decide
  rw [convert_of_finite hfinite, ofRatio_of_exact x.negative hpos
    x.denominator_pos hlast hvalue, hinfinity, min_eq_left hbits.le]
  refine ⟨?_, rfl, ?_⟩
  · simp only [isFinite, BitVec.toNat_ofNat, decide_eq_true_eq, hinfinity]
    rw [Nat.mod_eq_of_lt (hbits.trans hfits)]
    exact hbits
  · rw [value_of_units hle hlt (by omega) (hbits.trans hfits), ← hvalue]
    rfl

/-- Single precision survives the way to double precision and back. -/
theorem convert_widen {x : Single} (hfinite : x.isFinite = true) :
    (x.convert : Double).isFinite = true ∧
      ((x.convert : Double).convert : Single) = x := by
  rcases Nat.eq_zero_or_pos x.numerator with hzero | hpos
  · have hx := eq_zero_of_numerator hzero
    rw [hx]
    cases x.negative <;> decide
  · obtain ⟨hwide, hnegative, hvalue⟩ := widen hfinite hpos
    refine ⟨hwide, ?_⟩
    have hnumerator : 0 < (x.convert : Double).numerator := by
      have hn : (0 : ℚ) < x.numerator := by exact_mod_cast hpos
      have hd : (0 : ℚ) < x.denominator := by exact_mod_cast x.denominator_pos
      have : 0 < (x.convert : Double).value := by
        rw [hvalue, value]
        exact div_pos hn hd
      by_contra hzero
      obtain hzero : (x.convert : Double).numerator = 0 := by omega
      rw [value, hzero] at this
      simp at this
    rw [convert_of_finite hwide, hnegative]
    exact ofRatio_eq hfinite hnumerator (denominator_pos _) hvalue

/-! ## Whole numbers -/

/-- The last place that doubles keep of a positive whole number. -/
theorem lastPlace_nat {n : Nat} (hpos : 0 < n) :
    lastPlace .binary64 n 1 = (Nat.log 2 n : Int) - 52 := by
  have hlog := leadingExponent_eq_log hpos Nat.one_pos
  rw [Nat.cast_one, div_one, Int.log_natCast] at hlog
  have hleast : FloatFormat.binary64.leastExponent = -1074 := by decide
  have hfraction : FloatFormat.binary64.fractionBits = 52 := rfl
  rw [lastPlace, hlog, hleast, hfraction]
  omega

/-- A whole number of 64 bits has a finite double nearest to it. -/
theorem isFinite_ofInt {n : Int} (h : n.natAbs ≤ twoTo 64) :
    (ofInt n : Double).isFinite = true := by
  rcases Nat.eq_zero_or_pos n.natAbs with hzero | hpos
  · obtain rfl := Int.natAbs_eq_zero.mp hzero
    decide
  set place := lastPlace .binary64 n.natAbs 1 with hplace
  have hlast := lastPlace_nat hpos
  have hlog : Nat.log 2 n.natAbs ≤ 64 := by
    have := Nat.log_mono_right (b := 2) h
    rwa [twoTo_eq, Nat.log_pow Nat.one_lt_two] at this
  have hbelow : (n.natAbs : ℚ) / 1 / 2 ^ place < (2 ^ 53 : Nat) := by
    have hlt : (n.natAbs : ℚ) < 2 ^ (Nat.log 2 n.natAbs + 1) := by
      exact_mod_cast Nat.lt_pow_succ_log_self Nat.one_lt_two n.natAbs
    have hsum : (2 : ℚ) ^ (Nat.log 2 n.natAbs + 1) = 2 ^ 53 * 2 ^ place := by
      rw [← zpow_natCast, ← zpow_natCast, ← zpow_add₀ two_ne_zero]
      congr 1
      omega
    rw [div_one, div_lt_iff₀ (by positivity)]
    push_cast
    rwa [hsum] at hlt
  have hunits := roundHalfEven_le (Nat.mul_pos Nat.one_pos (twoTo_pos _))
    ((scaled_eq n.natAbs 1 place).trans_lt (by exact_mod_cast hbelow))
  have hinfinity : FloatFormat.binary64.infinityBits = 2047 * twoTo 52 := by
    decide
  have hleast : FloatFormat.binary64.leastExponent = -1074 := by decide
  set units := roundHalfEven (n.natAbs * twoTo (-place).toNat)
    (1 * twoTo place.toNat) with hunitsdef
  have hbits : units + (place - FloatFormat.binary64.leastExponent).toNat *
      twoTo 52 < 2047 * twoTo 52 := by
    have hsteps : (place - FloatFormat.binary64.leastExponent).toNat ≤ 1086 := by
      omega
    have hscaled := Nat.mul_le_mul_right (twoTo 52) hsteps
    have htwo : (2 : Nat) ^ 53 = 2 * twoTo 52 := by decide
    omega
  have hfits : 2047 * twoTo 52 < 2 ^ FloatFormat.binary64.width := by decide
  rw [ofInt, ofRatio, if_neg hpos.ne']
  simp only [isFinite, BitVec.toNat_ofNat, decide_eq_true_eq, hinfinity]
  rw [← hplace, ← hunitsdef, min_eq_left hbits.le,
    Nat.mod_eq_of_lt (hbits.trans hfits)]
  exact hbits

end SkillEngine.Floating
