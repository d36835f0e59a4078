import CellMachine.Double.Notation
import CellMachine.Proofs.Radix
import Mathlib.Algebra.Order.Floor.Semifield
import Mathlib.Data.Int.Log
/-!
# Rounding to decimals

The digits of a magnitude come from one rounding of an exact quotient.  This module says what they
are in terms of rational numbers: rounding is to the nearest integer with ties to even, the decimal
exponent is the logarithm, and significant digits with their exponent are the magnitude rounded to
that many digits, also where a carry makes it a power of ten.  Main statement: rounding at the place
of the last significant digit gives the significant digits themselves.
-/

namespace CellMachine

/-! ## Rounding of rational numbers -/

/-- The integer nearest to a rational number, the even one of two that are equally near. -/
def nearestEven (q : ℚ) : ℤ :=
  if Int.fract q < 1 / 2 then ⌊q⌋
  else if 1 / 2 < Int.fract q then ⌊q⌋ + 1
  else if Even ⌊q⌋ then ⌊q⌋ else ⌊q⌋ + 1

theorem abs_sub_nearestEven_le (q : ℚ) : |q - nearestEven q| ≤ 1 / 2 := by
  have hsplit := Int.floor_add_fract q
  have hnonneg := Int.fract_nonneg q
  have hlt := Int.fract_lt_one q
  rw [abs_le]
  unfold nearestEven
  split_ifs <;> push_cast <;> constructor <;> linarith

theorem nearestEven_eq_of_abs_lt {q : ℚ} {n : ℤ} (h : |q - n| < 1 / 2) : nearestEven q = n := by
  have hnear := abs_sub_nearestEven_le q
  have hclose : |((nearestEven q - n : ℤ) : ℚ)| < 1 := by
    push_cast
    rw [abs_le] at hnear
    rw [abs_lt] at h ⊢
    constructor <;> linarith
  have hzero : nearestEven q - n = 0 := Int.abs_lt_one_iff.mp (by exact_mod_cast hclose)
  exact sub_eq_zero.mp hzero

theorem nearestEven_intCast (n : ℤ) : nearestEven n = n :=
  nearestEven_eq_of_abs_lt (by simp)

theorem le_nearestEven {q : ℚ} {n : ℤ} (h : n ≤ q) : n ≤ nearestEven q := by
  have hnear := (abs_le.mp (abs_sub_nearestEven_le q)).2
  by_contra hlt
  have hstep : (nearestEven q : ℚ) ≤ n - 1 := by exact_mod_cast (by omega : nearestEven q ≤ n - 1)
  linarith

theorem nearestEven_le {q : ℚ} {n : ℤ} (h : q ≤ n) : nearestEven q ≤ n := by
  have hnear := (abs_le.mp (abs_sub_nearestEven_le q)).1
  by_contra hlt
  have hstep : (n + 1 : ℚ) ≤ nearestEven q := by exact_mod_cast (by omega : n + 1 ≤ nearestEven q)
  linarith

theorem cast_halfEven (num : ℕ) {den : ℕ} (h : 0 < den) :
    (halfEven num den : ℤ) = nearestEven (num / den) := by
  have hden : (0 : ℚ) < den := by exact_mod_cast h
  have hfloor : ⌊(num / den : ℚ)⌋ = (num / den : ℕ) := Rat.floor_natCast_div_natCast num den
  have hfract : Int.fract (num / den : ℚ) = (num % den : ℕ) / den :=
    Int.fract_div_natCast_eq_div_natCast_mod
  have hbelow : Int.fract (num / den : ℚ) < 1 / 2 ↔ 2 * (num % den) < den := by
    rw [hfract, div_lt_div_iff₀ hden two_pos, one_mul, mul_comm]
    exact_mod_cast Iff.rfl
  have habove : 1 / 2 < Int.fract (num / den : ℚ) ↔ den < 2 * (num % den) := by
    rw [hfract, div_lt_div_iff₀ two_pos hden, one_mul, mul_comm]
    exact_mod_cast Iff.rfl
  unfold halfEven nearestEven
  simp only [hbelow, habove, hfloor, Int.even_coe_nat]
  split_ifs with hlow hhigh heven
  · rfl
  · rfl
  · rw [Nat.even_iff.mp heven]
    rfl
  · rw [Nat.not_even_iff.mp heven]
    rfl


/-- A number rounded to a multiple of `10 ^ -places`. -/
def roundAt (places : ℤ) (q : ℚ) : ℚ := nearestEven (q * 10 ^ places) / 10 ^ places

/-- A number rounded to `count` significant digits, counted from the first one that is not zero. -/
def roundSignificant (count : ℕ) (q : ℚ) : ℚ := roundAt (count - 1 - Int.log 10 q) q

theorem ten_zpow_pos (n : ℤ) : (0 : ℚ) < 10 ^ n := zpow_pos (by norm_num) n

/-- A number that ends at a place is not rounded there. -/
theorem roundAt_of_mul_eq {places n : ℤ} {q : ℚ} (h : q * 10 ^ places = n) :
    roundAt places q = q := by
  rw [roundAt, h, nearestEven_intCast, ← h, mul_div_cancel_right₀ _ (ten_zpow_pos places).ne']

theorem log_ten_eq {q : ℚ} {exponent : ℤ} (hlow : (10 : ℚ) ^ exponent ≤ q)
    (hhigh : q < (10 : ℚ) ^ (exponent + 1)) : Int.log 10 q = exponent := by
  have hpos : 0 < q := lt_of_lt_of_le (ten_zpow_pos exponent) hlow
  have hle : exponent ≤ Int.log 10 q :=
    (Int.zpow_le_iff_le_log (by decide) hpos).mp (by exact_mod_cast hlow)
  have hlt : Int.log 10 q < exponent + 1 :=
    (Int.lt_zpow_iff_log_lt (by decide) hpos).mp (by exact_mod_cast hhigh)
  omega

namespace Double

/-- The number that a magnitude in units is. -/
def magnitude (units : ℕ) : ℚ := units / unitsPerOne

theorem cast_unitsPerOne_pos : (0 : ℚ) < unitsPerOne := by exact_mod_cast unitsPerOne_pos

theorem magnitude_pos {units : ℕ} (h : units ≠ 0) : 0 < magnitude units := by
  have hunits : (0 : ℚ) < units := by exact_mod_cast Nat.pos_of_ne_zero h
  rw [magnitude]
  exact div_pos hunits cast_unitsPerOne_pos

theorem shifted_natCast (units n : ℕ) : shifted units (n : ℤ) = (units * 10 ^ n, unitsPerOne) :=
  rfl

theorem snd_shifted_pos (units : ℕ) (shift : ℤ) : 0 < (shifted units shift).2 := by
  cases shift with
  | ofNat n =>
      simp only [Int.ofNat_eq_natCast, shifted_natCast]
      exact unitsPerOne_pos
  | negSucc n => exact Nat.mul_pos unitsPerOne_pos (Nat.pow_pos (by decide))

theorem ratio_shifted (units : ℕ) (shift : ℤ) :
    ((shifted units shift).1 / (shifted units shift).2 : ℚ) = magnitude units * 10 ^ shift := by
  cases shift with
  | ofNat n =>
      simp only [Int.ofNat_eq_natCast, shifted_natCast, magnitude, zpow_natCast]
      push_cast
      ring
  | negSucc n =>
      simp only [shifted, magnitude, zpow_negSucc]
      push_cast
      rw [div_mul_eq_div_div, div_eq_mul_inv _ ((10 : ℚ) ^ (n + 1))]

theorem cast_halfEven_shifted (units : ℕ) (shift : ℤ) :
    (halfEven (shifted units shift).1 (shifted units shift).2 : ℤ) =
      nearestEven (magnitude units * 10 ^ shift) := by
  rw [cast_halfEven _ (snd_shifted_pos units shift), ratio_shifted]

theorem cast_fixedDigits (units places : ℕ) :
    (fixedDigits units places : ℤ) = nearestEven (magnitude units * 10 ^ (places : ℤ)) := by
  rw [← cast_halfEven_shifted, shifted_natCast, fixedDigits]

theorem zpow_neg_le_magnitude_iff (units n : ℕ) :
    (10 : ℚ) ^ (-(n : ℤ)) ≤ magnitude units ↔ unitsPerOne ≤ 10 ^ n * units := by
  have hpow : (0 : ℚ) < 10 ^ n := pow_pos (by norm_num) n
  rw [zpow_neg, zpow_natCast, magnitude, inv_le_iff_one_le_mul₀ hpow, div_mul_eq_mul_div,
    le_div_iff₀ cast_unitsPerOne_pos, one_mul, mul_comm]
  exact_mod_cast Iff.rfl

theorem decimalExponent_of_le {units : ℕ} (h : unitsPerOne ≤ units) :
    decimalExponent units = Int.log 10 (magnitude units) := by
  have hlarge : 1 ≤ magnitude units := by
    rw [magnitude, le_div_iff₀ cast_unitsPerOne_pos, one_mul]
    exact_mod_cast h
  have hfloor : ⌊magnitude units⌋₊ = units / unitsPerOne := by
    rw [magnitude, Nat.floor_div_eq_div]
  rw [decimalExponent, if_pos h, Int.log_of_one_le_right 10 hlarge, hfloor,
    Numeral.length_digits (by decide)]
  push_cast
  ring

theorem decimalExponent_of_lt {units : ℕ} (hpos : 0 < units) (h : units < unitsPerOne) :
    decimalExponent units = Int.log 10 (magnitude units) := by
  have hbase : 1 < 10 := by decide
  have hquotient : (unitsPerOne - 1) / units ≠ 0 := by
    have hle : 1 ≤ (unitsPerOne - 1) / units := (Nat.le_div_iff_mul_le hpos).mpr (by omega)
    omega
  -- The quotient has `log + 1` digits, and one over the magnitude is above it by less than one.
  have hlow := (Nat.le_div_iff_mul_le hpos).mp (Nat.pow_log_le_self 10 hquotient)
  have hhigh := (Nat.div_lt_iff_lt_mul hpos).mp
    (Nat.lt_pow_succ_log_self hbase ((unitsPerOne - 1) / units))
  rw [decimalExponent, if_neg (Nat.not_le.mpr h), Numeral.length_digits hbase]
  rw [Nat.succ_eq_add_one] at hhigh
  generalize Nat.log 10 ((unitsPerOne - 1) / units) = log at hlow hhigh ⊢
  have hnext : -((log + 1 : ℕ) : ℤ) + 1 = -(log : ℤ) := by omega
  symm
  apply log_ten_eq
  · rw [zpow_neg_le_magnitude_iff]
    omega
  · rw [hnext, ← not_le, zpow_neg_le_magnitude_iff]
    omega

theorem decimalExponent_eq_log {units : ℕ} (h : units ≠ 0) :
    decimalExponent units = Int.log 10 (magnitude units) := by
  by_cases hone : unitsPerOne ≤ units
  · exact decimalExponent_of_le hone
  · exact decimalExponent_of_lt (Nat.pos_of_ne_zero h) (Nat.lt_of_not_le hone)

/-! ## Significant digits -/

section SignificantDigits

variable {units places : ℕ}

/-- The magnitude in units of its last significant place. -/
theorem magnitude_scaled_bounds (h : units ≠ 0) (places : ℕ) :
    (10 : ℚ) ^ places ≤ magnitude units * 10 ^ (places - Int.log 10 (magnitude units)) ∧
      magnitude units * 10 ^ (places - Int.log 10 (magnitude units)) < (10 : ℚ) ^ (places + 1) := by
  have hten : (10 : ℚ) ≠ 0 := by norm_num
  have hlow : (10 : ℚ) ^ Int.log 10 (magnitude units) ≤ magnitude units := by
    exact_mod_cast Int.zpow_log_le_self (by decide) (magnitude_pos h)
  have hhigh : magnitude units < (10 : ℚ) ^ (Int.log 10 (magnitude units) + 1) := by
    exact_mod_cast Int.lt_zpow_succ_log_self (by decide) (magnitude units)
  generalize Int.log 10 (magnitude units) = exponent at hlow hhigh ⊢
  have hscale := ten_zpow_pos (places - exponent)
  constructor
  · calc (10 : ℚ) ^ places = 10 ^ exponent * 10 ^ (places - exponent) := by
          rw [← zpow_add₀ hten, add_sub_cancel, zpow_natCast]
      _ ≤ magnitude units * 10 ^ (places - exponent) := by gcongr
  · calc magnitude units * 10 ^ (places - exponent)
        < 10 ^ (exponent + 1) * 10 ^ (places - exponent) := by gcongr
      _ = 10 ^ (places + 1) := by
          rw [← zpow_add₀ hten, ← zpow_natCast]
          congr 1
          push_cast
          ring

/-- Either the digits are those of the rounded magnitude, or a carry has made it a power of ten. -/
theorem significantDigits_cases (h : units ≠ 0) (places : ℕ) :
    ∃ rounded : ℕ,
      (rounded : ℤ) =
        nearestEven (magnitude units * 10 ^ (places - Int.log 10 (magnitude units))) ∧
      10 ^ places ≤ rounded ∧
      (rounded < 10 ^ (places + 1) ∧
          significantDigits units places = (rounded, Int.log 10 (magnitude units)) ∨
        rounded = 10 ^ (places + 1) ∧
          significantDigits units places = (10 ^ places, Int.log 10 (magnitude units) + 1)) := by
  obtain ⟨hlow, hhigh⟩ := magnitude_scaled_bounds h places
  have hdigits := cast_halfEven_shifted units (places - Int.log 10 (magnitude units))
  have hsignificant : significantDigits units places =
      let quotient := shifted units (places - Int.log 10 (magnitude units))
      let rounded := halfEven quotient.1 quotient.2
      if rounded = 10 ^ (places + 1) then (10 ^ places, Int.log 10 (magnitude units) + 1)
      else (rounded, Int.log 10 (magnitude units)) := by
    rw [significantDigits, if_neg h, decimalExponent_eq_log h]
  refine ⟨_, hdigits, ?_, ?_⟩
  · have hle : ((10 ^ places : ℕ) : ℤ) ≤
        nearestEven (magnitude units * 10 ^ (places - Int.log 10 (magnitude units))) :=
      le_nearestEven (by exact_mod_cast hlow)
    rw [← hdigits] at hle
    exact_mod_cast hle
  · have hle : nearestEven (magnitude units * 10 ^ (places - Int.log 10 (magnitude units))) ≤
        ((10 ^ (places + 1) : ℕ) : ℤ) := nearestEven_le (by exact_mod_cast hhigh.le)
    rw [← hdigits] at hle
    rcases Nat.lt_or_eq_of_le (Int.ofNat_le.mp hle) with hlt | heq
    · refine .inl ⟨hlt, ?_⟩
      rw [hsignificant]
      exact if_neg (Nat.ne_of_lt hlt)
    · refine .inr ⟨heq, ?_⟩
      rw [hsignificant]
      exact if_pos heq

theorem le_fst_significantDigits (h : units ≠ 0) (places : ℕ) :
    10 ^ places ≤ (significantDigits units places).1 := by
  obtain ⟨rounded, -, hlow, ⟨-, hdigits⟩ | ⟨-, hdigits⟩⟩ := significantDigits_cases h places
  · rwa [hdigits]
  · rw [hdigits]

theorem fst_significantDigits_lt (units places : ℕ) :
    (significantDigits units places).1 < 10 ^ (places + 1) := by
  by_cases h : units = 0
  · rw [h]
    exact Nat.pow_pos (by decide)
  · obtain ⟨rounded, -, -, ⟨hlt, hdigits⟩ | ⟨-, hdigits⟩⟩ := significantDigits_cases h places
    · rwa [hdigits]
    · rw [hdigits]
      exact Nat.pow_lt_pow_right (by decide) (Nat.lt_succ_self places)

theorem roundSignificant_succ (places : ℕ) (q : ℚ) :
    roundSignificant (places + 1) q =
      nearestEven (q * 10 ^ (places - Int.log 10 q)) / 10 ^ (places - Int.log 10 q) := by
  have hplaces : ((places + 1 : ℕ) : ℤ) - 1 - Int.log 10 q = places - Int.log 10 q := by omega
  rw [roundSignificant, roundAt, hplaces]

theorem significantDigits_zero (places : ℕ) : significantDigits 0 places = (0, 0) := rfl

theorem magnitude_zero : magnitude 0 = 0 := by
  rw [magnitude, Nat.cast_zero, zero_div]

theorem roundSignificant_zero (count : ℕ) : roundSignificant count 0 = 0 := by
  have hzero : nearestEven 0 = 0 := nearestEven_intCast 0
  rw [roundSignificant, roundAt, zero_mul, hzero, Int.cast_zero, zero_div]

theorem significantDigits_eq_rounded (units places : ℕ) :
    ((significantDigits units places).1 : ℚ) *
        10 ^ ((significantDigits units places).2 - (places : ℤ)) =
      roundSignificant (places + 1) (magnitude units) := by
  have hten : (10 : ℚ) ≠ 0 := by norm_num
  by_cases h : units = 0
  · rw [h, significantDigits_zero, magnitude_zero, roundSignificant_zero, Nat.cast_zero, zero_mul]
  · obtain ⟨rounded, hrounded, -, ⟨-, hdigits⟩ | ⟨heq, hdigits⟩⟩ := significantDigits_cases h places
    · rw [roundSignificant_succ, ← hrounded, hdigits, div_eq_mul_inv, ← zpow_neg, neg_sub,
        Int.cast_natCast]
    · have hcarry : (10 : ℚ) ^ (Int.log 10 (magnitude units) + 1 - (places : ℤ)) =
          10 * 10 ^ (Int.log 10 (magnitude units) - (places : ℤ)) := by
        rw [add_sub_right_comm, zpow_add_one₀ hten, mul_comm]
      rw [roundSignificant_succ, ← hrounded, hdigits, heq, div_eq_mul_inv, ← zpow_neg, neg_sub,
        hcarry]
      push_cast
      ring

theorem snd_significantDigits_eq_log (units places : ℕ) :
    (significantDigits units places).2 =
      Int.log 10 (roundSignificant (places + 1) (magnitude units)) := by
  have hten : (10 : ℚ) ≠ 0 := by norm_num
  by_cases h : units = 0
  · rw [h, significantDigits_zero, magnitude_zero, roundSignificant_zero, Int.log_zero_right]
  · have hlow : ((10 : ℚ) ^ places) ≤ (significantDigits units places).1 := by
      exact_mod_cast le_fst_significantDigits h places
    have hhigh : ((significantDigits units places).1 : ℚ) < 10 ^ (places + 1) := by
      exact_mod_cast fst_significantDigits_lt units places
    rw [← significantDigits_eq_rounded]
    generalize significantDigits units places = digits at hlow hhigh ⊢
    have hscale := ten_zpow_pos (digits.2 - places)
    symm
    apply log_ten_eq
    · calc (10 : ℚ) ^ digits.2 = 10 ^ places * 10 ^ (digits.2 - (places : ℤ)) := by
            rw [← zpow_natCast, ← zpow_add₀ hten, add_sub_cancel]
        _ ≤ digits.1 * 10 ^ (digits.2 - (places : ℤ)) := by gcongr
    · calc (digits.1 : ℚ) * 10 ^ (digits.2 - (places : ℤ))
          < 10 ^ (places + 1) * 10 ^ (digits.2 - (places : ℤ)) := by gcongr
        _ = 10 ^ (digits.2 + 1) := by
            rw [← zpow_natCast, ← zpow_add₀ hten]
            congr 1
            push_cast
            ring

/-- To round at the place of the last significant digit is to round to that many digits.  After a
carry that place is one higher, and the digits are still those of a power of ten. -/
theorem fixedDigits_eq_significantDigits {decimals : ℕ}
    (h : (decimals : ℤ) = places - (significantDigits units places).2) :
    fixedDigits units decimals = (significantDigits units places).1 := by
  by_cases hzero : units = 0
  · have hround := halfEven_mul_self 0 unitsPerOne_pos
    rw [Nat.zero_mul] at hround
    rw [hzero, significantDigits_zero, fixedDigits, Nat.zero_mul, hround]
  · obtain ⟨rounded, hrounded, -, ⟨-, hdigits⟩ | ⟨heq, hdigits⟩⟩ :=
      significantDigits_cases hzero places
    · rw [hdigits] at h ⊢
      apply Int.ofNat_inj.mp
      rw [cast_fixedDigits, h, hrounded]
    · rw [hdigits] at h ⊢
      apply Int.ofNat_inj.mp
      have hten : (10 : ℚ) ≠ 0 := by norm_num
      have hnear := abs_sub_nearestEven_le
        (magnitude units * 10 ^ (places - Int.log 10 (magnitude units)))
      have hscale : magnitude units * 10 ^ (places - Int.log 10 (magnitude units)) =
          10 * (magnitude units * 10 ^ (decimals : ℤ)) := by
        rw [h, show (places : ℤ) - Int.log 10 (magnitude units) =
          places - (Int.log 10 (magnitude units) + 1) + 1 by ring, zpow_add_one₀ hten]
        ring
      rw [cast_fixedDigits]
      apply nearestEven_eq_of_abs_lt
      rw [← hrounded, heq, hscale, abs_le] at hnear
      push_cast at hnear ⊢
      rw [pow_succ] at hnear
      rw [abs_lt]
      constructor <;> linarith

end SignificantDigits

end Double

end CellMachine
