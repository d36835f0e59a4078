import CellMachine.Proofs.DecimalRounding
import CellMachine.Proofs.DecimalTexts
/-!
# Exact digits

A double has at most 1074 digits behind its point, and one of 2 ^ 53 or more has none.  So nothing
is rounded at the most places that are computed, and every later digit is a zero.  Main statements:
fixed and scientific notation have the digits of a rounding at the places that were asked for,
whatever the limit.
-/

namespace CellMachine

/-- The digits before the point are those of the integer part. -/
theorem Decimal.whole_ofScaled (scaled places : ℕ) :
    (ofScaled scaled places).whole = Numeral.digits 10 ⌊(ofScaled scaled places).number⌋₊ := by
  have hpow : ((10 ^ places : ℕ) : ℚ) = 10 ^ (places : ℤ) := by
    rw [zpow_natCast]
    push_cast
    rfl
  rw [number_ofScaled, zpow_neg, ← div_eq_mul_inv, ← hpow, Nat.floor_div_eq_div]
  rfl

namespace Double

/-! ## Fixed places -/

theorem unitsPerOne_dvd_mul_pow (units : ℕ) {places : ℕ} (h : 1074 ≤ places) :
    unitsPerOne ∣ units * 10 ^ places := by
  have htwo : 2 ^ places ∣ 10 ^ places := pow_dvd_pow_of_dvd (by decide) places
  have hunit : unitsPerOne ∣ 2 ^ places := by
    rw [unitsPerOne]
    generalize 1074 = e at h ⊢
    exact Nat.pow_dvd_pow 2 h
  exact Nat.dvd_mul_left_of_dvd (Nat.dvd_trans hunit htwo) units

theorem fixedDigits_of_mul_eq {units places scaled : ℕ}
    (h : units * 10 ^ places = scaled * unitsPerOne) : fixedDigits units places = scaled := by
  rw [fixedDigits, h, halfEven_mul_self scaled unitsPerOne_pos]

theorem fixedDigits_add (units : ℕ) {places : ℕ} (h : 1074 ≤ places) (n : ℕ) :
    fixedDigits units (places + n) = fixedDigits units places * 10 ^ n := by
  obtain ⟨scaled, hscaled⟩ := unitsPerOne_dvd_mul_pow units h
  rw [Nat.mul_comm unitsPerOne] at hscaled
  rw [fixedDigits_of_mul_eq hscaled]
  apply fixedDigits_of_mul_eq
  rw [Nat.pow_add, ← Nat.mul_assoc, hscaled]
  ring

theorem fixed_eq_pointed (units places : ℕ) :
    fixed units places = Numeral.pointed (fixedDigits units places) places := by
  unfold fixed paddedPlaces
  rcases Nat.le_total places placesLimit with hle | hle
  · rw [Nat.min_eq_left hle, Nat.sub_eq_zero_of_le hle, List.replicate_zero, List.append_nil]
  · obtain ⟨n, rfl⟩ := Nat.exists_eq_add_of_le hle
    rw [Nat.min_eq_right hle, Nat.add_sub_cancel_left, fixedDigits_add units (by decide),
      Decimal.pointed_mul_pow _ (by decide)]

/-! ## Significant digits -/

/-- A magnitude that has no more than `places + 1` significant digits is not rounded. -/
theorem significantDigits_of_exact {units places scaled : ℕ} (h : units ≠ 0)
    (hscaled : magnitude units * 10 ^ (places - Int.log 10 (magnitude units)) = scaled) :
    significantDigits units places = (scaled, Int.log 10 (magnitude units)) := by
  have hhigh := (magnitude_scaled_bounds h places).2
  obtain ⟨rounded, hrounded, -, hcases⟩ := significantDigits_cases h places
  have hcast : (scaled : ℚ) = ((scaled : ℤ) : ℚ) := by norm_cast
  rw [hscaled] at hrounded hhigh
  rw [hcast, nearestEven_intCast, Nat.cast_inj] at hrounded
  have hlt : scaled < 10 ^ (places + 1) := by exact_mod_cast hhigh
  rcases hcases with ⟨-, hdigits⟩ | ⟨hcarry, -⟩
  · rw [hdigits, hrounded]
  · omega

/-! ## Bounds of doubles -/

theorem units_lt_of_representable {units : ℕ} (h : Representable units) :
    units < 2 ^ (1024 : ℕ) * unitsPerOne := by
  obtain ⟨significand, shift, hsignificand, hshift, rfl⟩ := h
  have hexponent : 53 + shift ≤ 1024 + 1074 := by omega
  rw [unitsPerOne]
  generalize 1024 = bits, 1074 = e at hexponent ⊢
  calc significand * 2 ^ shift < 2 ^ (53 : ℕ) * 2 ^ shift :=
        Nat.mul_lt_mul_of_pos_right hsignificand (Nat.pow_pos (by decide))
    _ = 2 ^ (53 + shift) := (Nat.pow_add 2 53 shift).symm
    _ ≤ 2 ^ (bits + e) := Nat.pow_le_pow_right (by decide) hexponent
    _ = 2 ^ bits * 2 ^ e := Nat.pow_add 2 bits e

/-- Doubles of `2 ^ 53` or more are whole numbers. -/
theorem unitsPerOne_dvd_of_representable {units : ℕ} (h : Representable units)
    (hlarge : 2 ^ (53 : ℕ) * unitsPerOne ≤ units) : unitsPerOne ∣ units := by
  obtain ⟨significand, shift, hsignificand, -, rfl⟩ := h
  have hlt : 2 ^ (53 : ℕ) * unitsPerOne < 2 ^ (53 : ℕ) * 2 ^ shift :=
    Nat.lt_of_le_of_lt hlarge
      (Nat.mul_lt_mul_of_pos_right hsignificand (Nat.pow_pos (by decide)))
  have hpow := Nat.lt_of_mul_lt_mul_left hlt
  rw [unitsPerOne] at hpow ⊢
  generalize 1074 = e at hpow ⊢
  have hshift : e < shift := (Nat.pow_lt_pow_iff_right (by decide)).mp hpow
  exact Nat.dvd_mul_left_of_dvd (Nat.pow_dvd_pow 2 hshift.le) significand

theorem log_magnitude_lt_of_lt {units e : ℕ} (h : units ≠ 0) (hlt : units < 2 ^ e * unitsPerOne) :
    Int.log 10 (magnitude units) < e := by
  apply (Int.lt_zpow_iff_log_lt (by decide) (magnitude_pos h)).mp
  have hten : 2 ^ e * unitsPerOne ≤ 10 ^ e * unitsPerOne :=
    Nat.mul_le_mul_right _ (Nat.pow_le_pow_left (by decide) e)
  rw [magnitude, div_lt_iff₀ cast_unitsPerOne_pos, zpow_natCast]
  exact_mod_cast Nat.lt_of_lt_of_le hlt hten

theorem log_magnitude_lt {units : ℕ} (h : units ≠ 0) (hrep : Representable units) :
    Int.log 10 (magnitude units) < 1024 := by
  have hlt := log_magnitude_lt_of_lt h (units_lt_of_representable hrep)
  omega

theorem pow_mul_le_of_le_log {units e : ℕ} (h : units ≠ 0)
    (hlog : (e : ℤ) ≤ Int.log 10 (magnitude units)) : 10 ^ e * unitsPerOne ≤ units := by
  have hle := (Int.zpow_le_iff_le_log (by decide) (magnitude_pos h)).mpr hlog
  rw [magnitude, le_div_iff₀ cast_unitsPerOne_pos, zpow_natCast] at hle
  exact_mod_cast hle

/-! ## Significant digits beyond the limit -/

theorem magnitude_mul_pow {units places scaled : ℕ}
    (h : units * 10 ^ places = scaled * unitsPerOne) :
    magnitude units * 10 ^ (places : ℤ) = scaled := by
  rw [magnitude, zpow_natCast, div_mul_eq_mul_div, div_eq_iff cast_unitsPerOne_pos.ne']
  exact_mod_cast h

theorem exists_exact_digits {units places : ℕ} (h : units ≠ 0) (hrep : Representable units)
    (hplaces : placesLimit ≤ places) :
    ∃ scaled : ℕ, magnitude units * 10 ^ (places - Int.log 10 (magnitude units)) = scaled := by
  have hlog := log_magnitude_lt h hrep
  have hlimit : placesLimit = 1100 := rfl
  obtain ⟨shift, hshift⟩ :=
    Int.eq_ofNat_of_zero_le (show 0 ≤ (places : ℤ) - Int.log 10 (magnitude units) by omega)
  have hdvd : unitsPerOne ∣ units * 10 ^ shift := by
    by_cases hsmall : 1074 ≤ shift
    · exact unitsPerOne_dvd_mul_pow units hsmall
    · -- The limit leaves so few places only to whole numbers.
      have hlarge := pow_mul_le_of_le_log (e := 27) h (by omega)
      have hpow : 2 ^ (53 : ℕ) * unitsPerOne ≤ 10 ^ (27 : ℕ) * unitsPerOne :=
        Nat.mul_le_mul_right _ (by decide)
      exact Nat.dvd_mul_right_of_dvd
        (unitsPerOne_dvd_of_representable hrep (Nat.le_trans hpow hlarge)) _
  obtain ⟨scaled, hscaled⟩ := hdvd
  rw [Nat.mul_comm unitsPerOne] at hscaled
  rw [hshift]
  exact ⟨scaled, magnitude_mul_pow hscaled⟩

theorem significantDigits_add {units : ℕ} (hrep : Representable units) (n : ℕ) :
    significantDigits units (placesLimit + n) =
      ((significantDigits units placesLimit).1 * 10 ^ n,
        (significantDigits units placesLimit).2) := by
  by_cases h : units = 0
  · rw [h, significantDigits_zero, significantDigits_zero, Nat.zero_mul]
  · obtain ⟨scaled, hscaled⟩ := exists_exact_digits h hrep (Nat.le_refl placesLimit)
    have hten : (10 : ℚ) ≠ 0 := by norm_num
    have hmore : magnitude units *
        10 ^ (((placesLimit + n : ℕ) : ℤ) - Int.log 10 (magnitude units)) =
          (scaled * 10 ^ n : ℕ) := by
      rw [Nat.cast_add, add_sub_right_comm, zpow_add₀ hten, ← mul_assoc, hscaled, zpow_natCast]
      push_cast
      rfl
    rw [significantDigits_of_exact h hscaled, significantDigits_of_exact h hmore]

theorem scientific_eq_pointed {units : ℕ} (hrep : Representable units) (places : ℕ) :
    scientific units places =
      (Numeral.pointed (significantDigits units places).1 places,
        (significantDigits units places).2) := by
  unfold scientific paddedPlaces
  rcases Nat.le_total places placesLimit with hle | hle
  · simp only [Nat.min_eq_left hle, Nat.sub_eq_zero_of_le hle, List.replicate_zero, List.append_nil]
  · obtain ⟨n, rfl⟩ := Nat.exists_eq_add_of_le hle
    simp only [Nat.min_eq_right hle, Nat.add_sub_cancel_left, significantDigits_add hrep n]
    rw [Decimal.pointed_mul_pow _ (by decide)]

/-! ## What is shown -/

/-- From 1074 places on a magnitude is not rounded. -/
theorem roundAt_magnitude (units : ℕ) {places : ℕ} (h : 1074 ≤ places) :
    roundAt places (magnitude units) = magnitude units := by
  obtain ⟨scaled, hscaled⟩ := unitsPerOne_dvd_mul_pow units h
  rw [Nat.mul_comm unitsPerOne] at hscaled
  have hwhole : magnitude units * 10 ^ (places : ℤ) = ((scaled : ℤ) : ℚ) := by
    rw [magnitude_mul_pow hscaled, Int.cast_natCast]
  exact roundAt_of_mul_eq hwhole

theorem roundSignificant_magnitude {units places : ℕ} (hrep : Representable units)
    (h : placesLimit ≤ places) :
    roundSignificant (places + 1) (magnitude units) = magnitude units := by
  by_cases hzero : units = 0
  · rw [hzero, magnitude_zero, roundSignificant_zero]
  · obtain ⟨scaled, hscaled⟩ := exists_exact_digits hzero hrep h
    have hplaces : ((places + 1 : ℕ) : ℤ) - 1 = places := by omega
    rw [roundSignificant, hplaces]
    exact roundAt_of_mul_eq (n := scaled) (by rw [hscaled, Int.cast_natCast])

theorem read_fixed (units places : ℕ) :
    Decimal.read (fixed units places) = Decimal.ofScaled (fixedDigits units places) places := by
  rw [fixed_eq_pointed, ← Decimal.text_ofScaled]
  exact Decimal.read_text (Decimal.wellFormed_ofScaled _ _)

theorem number_read_fixed (units places : ℕ) :
    (Decimal.read (fixed units places)).number = roundAt places (magnitude units) := by
  have hcast : (fixedDigits units places : ℚ) = ((fixedDigits units places : ℤ) : ℚ) :=
    (Int.cast_natCast _).symm
  rw [read_fixed, Decimal.number_ofScaled, hcast, cast_fixedDigits, zpow_neg, roundAt,
    div_eq_mul_inv]

theorem snd_scientific {units : ℕ} (hrep : Representable units) (places : ℕ) :
    (scientific units places).2 = (significantDigits units places).2 := by
  rw [scientific_eq_pointed hrep]

theorem read_mantissa {units : ℕ} (hrep : Representable units) (places : ℕ) :
    Decimal.read (scientific units places).1 =
      Decimal.ofScaled (significantDigits units places).1 places := by
  rw [scientific_eq_pointed hrep, ← Decimal.text_ofScaled]
  exact Decimal.read_text (Decimal.wellFormed_ofScaled _ _)

theorem length_whole_mantissa (units places : ℕ) :
    (Decimal.ofScaled (significantDigits units places).1 places).whole.length = 1 := by
  have hdigit : (significantDigits units places).1 / 10 ^ places < 10 := by
    rw [Nat.div_lt_iff_lt_mul (Nat.pow_pos (by decide)), Nat.mul_comm, ← Nat.pow_succ]
    exact fst_significantDigits_lt units places
  simp only [Decimal.ofScaled, Numeral.digits, Nat.toDigits_of_lt_base hdigit,
    List.length_singleton]

theorem number_mantissa (units places : ℕ) :
    (Decimal.ofScaled (significantDigits units places).1 places).number *
        10 ^ (significantDigits units places).2 =
      roundSignificant (places + 1) (magnitude units) := by
  have hten : (10 : ℚ) ≠ 0 := by norm_num
  rw [Decimal.number_ofScaled, mul_assoc, ← zpow_add₀ hten, neg_add_eq_sub,
    significantDigits_eq_rounded]

theorem fixed_of_le {units places : ℕ} (h : placesLimit ≤ places) :
    fixed units places =
      fixed units placesLimit ++ List.replicate (places - placesLimit) '0' := by
  simp only [fixed, paddedPlaces, Nat.min_eq_right h, Nat.min_self, Nat.sub_self,
    List.replicate_zero, List.append_nil]

theorem scientific_of_le {units places : ℕ} (h : placesLimit ≤ places) :
    scientific units places =
      ((scientific units placesLimit).1 ++ List.replicate (places - placesLimit) '0',
        (scientific units placesLimit).2) := by
  simp only [scientific, paddedPlaces, Nat.min_eq_right h, Nat.min_self, Nat.sub_self,
    List.replicate_zero, List.append_nil]

/-- With any number of places, fixed notation shows exactly that many digits behind the point, and
they are those of the magnitude rounded there; scientific notation shows one digit before the point
and as many behind it, and with its exponent they are the magnitude rounded to its significant
digits.  Beyond the limit the texts are those at the limit with zeros behind them, and nothing is
lost: both denote the magnitude itself. -/
theorem fixed_and_scientific_denote_rounded (units places : ℕ) (hrep : Representable units) :
    let exact : ℚ := magnitude units
    let rounded : ℚ := roundSignificant (places + 1) exact
    let output : Text := fixed units places
    let shown : Decimal := Decimal.read output
    let parts : Text × ℤ := scientific units places
    let mantissa : Decimal := Decimal.read parts.1
    (shown.WellFormed ∧ shown.text = output ∧ shown.exponent = none ∧
      shown.whole = Numeral.digits 10 ⌊shown.number⌋₊ ∧ shown.fraction.length = places ∧
      shown.number = roundAt places exact) ∧
    (mantissa.WellFormed ∧ mantissa.text = parts.1 ∧ mantissa.exponent = none ∧
      mantissa.whole.length = 1 ∧ mantissa.fraction.length = places ∧
      mantissa.number * 10 ^ parts.2 = rounded ∧ parts.2 = Int.log 10 rounded) ∧
    (placesLimit ≤ places →
      output = fixed units placesLimit ++ List.replicate (places - placesLimit) '0' ∧
      parts.1 = (scientific units placesLimit).1 ++ List.replicate (places - placesLimit) '0' ∧
      parts.2 = (scientific units placesLimit).2 ∧
      shown.number = exact ∧ mantissa.number * 10 ^ parts.2 = exact) := by
  intro exact rounded output shown parts mantissa
  have hshown : shown = Decimal.ofScaled (fixedDigits units places) places :=
    read_fixed units places
  have hmantissa : mantissa = Decimal.ofScaled (significantDigits units places).1 places :=
    read_mantissa hrep places
  have hexponent : parts.2 = (significantDigits units places).2 := snd_scientific hrep places
  have hfixed : shown.number = roundAt places exact := number_read_fixed units places
  have hrounded : mantissa.number * 10 ^ parts.2 = rounded := by
    rw [hmantissa, hexponent]
    exact number_mantissa units places
  refine ⟨⟨?_, ?_, ?_, ?_, ?_, hfixed⟩, ⟨?_, ?_, ?_, ?_, ?_, hrounded, ?_⟩, ?_⟩
  · rw [hshown]
    exact Decimal.wellFormed_ofScaled _ _
  · rw [hshown, Decimal.text_ofScaled]
    exact (fixed_eq_pointed units places).symm
  · rw [hshown]
    rfl
  · rw [hshown]
    exact Decimal.whole_ofScaled _ _
  · rw [hshown]
    exact Decimal.length_fraction_ofScaled _ _
  · rw [hmantissa]
    exact Decimal.wellFormed_ofScaled _ _
  · rw [hmantissa, Decimal.text_ofScaled]
    exact congrArg Prod.fst (scientific_eq_pointed hrep places).symm
  · rw [hmantissa]
    rfl
  · rw [hmantissa]
    exact length_whole_mantissa units places
  · rw [hmantissa]
    exact Decimal.length_fraction_ofScaled _ _
  · rw [hexponent]
    exact snd_significantDigits_eq_log units places
  · intro hlimit
    have hparts : parts = _ := scientific_of_le hlimit
    refine ⟨fixed_of_le hlimit, by rw [hparts], by rw [hparts], ?_, ?_⟩
    · rw [hfixed]
      exact roundAt_magnitude units (Nat.le_trans (by decide) hlimit)
    · rw [hrounded]
      exact roundSignificant_magnitude hrep hlimit

/-- The least positive double, `2 ^ -1074`, with more places than it has digits. -/
theorem fixed_and_scientific_denote_rounded_least :
    Representable 1 ∧ placesLimit ≤ 1200 ∧
      (Decimal.read (fixed 1 1200)).fraction.length = 1200 ∧
      (Decimal.read (fixed 1 1200)).number = magnitude 1 ∧
      (scientific 1 1200).2 = -324 ∧
      (Decimal.read (scientific 1 1200).1).number * 10 ^ (-324 : ℤ) = magnitude 1 := by
  have hrep : Representable 1 := ⟨1, 0, by decide, by decide, rfl⟩
  have hlimit : placesLimit ≤ 1200 := by decide
  have hexponent : (scientific 1 1200).2 = -324 := by decide +kernel
  obtain ⟨⟨-, -, -, -, hlength, -⟩, -, hbeyond⟩ :=
    fixed_and_scientific_denote_rounded 1 1200 hrep
  obtain ⟨-, -, -, hfixed, hscientific⟩ := hbeyond hlimit
  rw [hexponent] at hscientific
  exact ⟨hrep, hlimit, hlength, hfixed, hexponent, hscientific⟩

end Double

end CellMachine
