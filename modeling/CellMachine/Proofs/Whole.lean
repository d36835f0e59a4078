import CellMachine.Double.Basic
import Mathlib.Algebra.Group.Nat.Defs
/-!
# Whole numbers as doubles

A whole number up to `2 ^ 53` is a double.  A larger one is rounded, but not below `2 ^ 53`, and it
stays finite as far as a template can write it.  So a number that a template holds is compared
with a smaller bound as if no rounding took place.
-/

namespace CellMachine.Double

theorem log2_mul_two_pow {n : Nat} (h : n ≠ 0) (shift : Nat) :
    (n * 2 ^ shift).log2 = n.log2 + shift := by
  have hpos : 0 < 2 ^ shift := Nat.two_pow_pos shift
  have hlower := Nat.mul_le_mul_right (2 ^ shift) (Nat.log2_self_le h)
  have hupper := Nat.mul_lt_mul_of_pos_right (@Nat.lt_log2_self n) hpos
  rw [← Nat.pow_add] at hlower hupper
  rw [Nat.log2_eq_iff (Nat.mul_ne_zero h (Nat.ne_of_gt hpos))]
  exact ⟨hlower, by rwa [Nat.add_right_comm] at hupper⟩

theorem spacing_mul_two_pow {n : Nat} (h : n ≠ 0) (shift : Nat) :
    spacing (n * 2 ^ shift) = 2 ^ (n.log2 + shift - 52) := by
  rw [spacing, log2_mul_two_pow h]

theorem spacing_dvd_mul_two_pow {n : Nat} (h : n ≤ 2 ^ 53) (shift : Nat) :
    spacing (n * 2 ^ shift) ∣ n * 2 ^ shift := by
  by_cases hzero : n = 0
  · simp [hzero]
  · rw [spacing_mul_two_pow hzero]
    rcases Nat.eq_or_lt_of_le h with rfl | hlt
    · rw [← Nat.pow_add, Nat.log2_two_pow]
      exact Nat.pow_dvd_pow 2 (by omega)
    · have hlog : n.log2 < 53 := (Nat.log2_lt hzero).mpr hlt
      exact Nat.dvd_mul_left_of_dvd (Nat.pow_dvd_pow 2 (by omega)) n

/-- A multiple of the distance between the doubles around it is not rounded. -/
theorem nearestUnits_of_spacing_dvd {units : Nat} (h : spacing units ∣ units) :
    nearestUnits units 1 = units := by
  have hpos : 0 < spacing units := Nat.two_pow_pos _
  have hround := halfEven_mul_self (units / spacing units) hpos
  rw [Nat.div_mul_cancel h] at hround
  rw [nearestUnits, Nat.div_one, Nat.one_mul, hround, Nat.div_mul_cancel h]

theorem nearestUnits_whole {n : Nat} (h : n ≤ 2 ^ 53) :
    nearestUnits (n * unitsPerOne) 1 = n * unitsPerOne := by
  have hunits := nearestUnits_of_spacing_dvd (spacing_dvd_mul_two_pow h 1074)
  rwa [← unitsPerOne] at hunits

theorem le_nearestUnits {n : Nat} (h : 2 ^ 53 ≤ n) (shift : Nat) :
    2 ^ 53 * 2 ^ shift ≤ nearestUnits (n * 2 ^ shift) 1 := by
  have hzero : n ≠ 0 := by omega
  have hlog : 53 ≤ n.log2 := (Nat.le_log2 hzero).mpr h
  have hround : 2 ^ 52 ≤ halfEven (n * 2 ^ shift) (1 * spacing (n * 2 ^ shift / 1)) := by
    apply le_halfEven_spacing
    rw [Nat.div_one, log2_mul_two_pow hzero]
    omega
  calc
    2 ^ 53 * 2 ^ shift = 2 ^ (53 + shift) := (Nat.pow_add 2 53 shift).symm
    _ ≤ 2 ^ (52 + (n.log2 + shift - 52)) := Nat.pow_le_pow_right (by omega) (by omega)
    _ = 2 ^ 52 * spacing (n * 2 ^ shift / 1) := by
      rw [Nat.div_one, spacing_mul_two_pow hzero, Nat.pow_add]
    _ ≤ nearestUnits (n * 2 ^ shift) 1 := Nat.mul_le_mul_right _ hround

theorem nearestUnits_lt {n shift total : Nat} (h : n < 2 ^ 64) (htotal : 65 + shift ≤ total) :
    nearestUnits (n * 2 ^ shift) 1 < 2 ^ total := by
  by_cases hzero : n = 0
  · rw [nearestUnits_of_spacing_dvd (spacing_dvd_mul_two_pow (by omega) shift), hzero,
      Nat.zero_mul]
    exact Nat.two_pow_pos _
  · have hlog : n.log2 < 64 := (Nat.log2_lt hzero).mpr h
    calc
      nearestUnits (n * 2 ^ shift) 1 ≤ 2 ^ 53 * spacing (n * 2 ^ shift / 1) :=
        Nat.mul_le_mul_right _ (halfEven_spacing_le (n * 2 ^ shift) 1)
      _ = 2 ^ (53 + (n.log2 + shift - 52)) := by
        rw [Nat.div_one, spacing_mul_two_pow hzero, ← Nat.pow_add]
      _ < 2 ^ total := Nat.pow_lt_pow_right (by omega) (by omega)

theorem nearestUnits_lt_overflowUnits {n : Nat} (h : n < 2 ^ 64) :
    nearestUnits (n * unitsPerOne) 1 < overflowUnits := by
  have hbits : 65 + 1074 ≤ 2098 := by omega
  have hlt := nearestUnits_lt h hbits
  rwa [← unitsPerOne, ← overflowUnits] at hlt

/-! ## Integer parts -/

theorem trunc?_ofRatio_one (negative : Bool) {n : Nat} (h : n < 2 ^ 64) :
    (ofRatio negative n 1).trunc? =
      let whole := nearestUnits (n * unitsPerOne) 1 / unitsPerOne
      some (if negative then -(whole : Int) else whole) := by
  rw [ofRatio, ofUnits, dif_pos (nearestUnits_lt_overflowUnits h)]
  rfl

theorem isNegative_ofNat (n : Nat) : (ofNat n).isNegative = false := by
  unfold ofNat ofRatio ofUnits
  split <;> rfl

theorem trunc?_ofNat {n : Nat} (h : n ≤ 2 ^ 53) : (ofNat n).trunc? = some (n : Int) := by
  rw [ofNat, trunc?_ofRatio_one false (by omega), nearestUnits_whole h,
    Nat.mul_div_cancel _ unitsPerOne_pos]
  rfl

theorem nearestUnits_ne_zero {n : Nat} (h : n ≠ 0) : nearestUnits (n * unitsPerOne) 1 ≠ 0 := by
  by_cases hn : n ≤ 2 ^ 53
  · rw [nearestUnits_whole hn]
    exact Nat.mul_ne_zero h (Nat.ne_of_gt unitsPerOne_pos)
  · have hle := le_nearestUnits (Nat.le_of_not_le hn) 1074
    rw [← unitsPerOne] at hle
    have hlarge : 0 < 2 ^ 53 * unitsPerOne := Nat.mul_pos (Nat.two_pow_pos 53) unitsPerOne_pos
    omega

/-- Rounding keeps the sign of an integer, however large it is. -/
theorem isNegative_ofInt (n : Int) : (ofInt n).isNegative = decide (n < 0) := by
  unfold ofInt ofRatio ofUnits
  split
  · by_cases hneg : n < 0
    · have hunits := nearestUnits_ne_zero (Int.natAbs_ne_zero.mpr (Int.ne_of_lt hneg))
      simp [isNegative, hneg, hunits]
    · simp [isNegative, hneg]
  · rfl

theorem trunc?_ofInt {n : Int} (h : n.natAbs ≤ 2 ^ 53) : (ofInt n).trunc? = some n := by
  rw [ofInt, trunc?_ofRatio_one _ (by omega), nearestUnits_whole h,
    Nat.mul_div_cancel _ unitsPerOne_pos]
  by_cases hneg : n < 0
  · simp only [hneg, decide_true, if_true, Option.some.injEq]
    omega
  · simp only [hneg, decide_false, Bool.false_eq_true, if_false, Option.some.injEq]
    omega

theorem exists_trunc?_ofInt {n : Int} (h : n.natAbs < 2 ^ 64) :
    ∃ whole, (ofInt n).trunc? = some whole := ⟨_, trunc?_ofRatio_one _ h⟩

/-- Rounding moves no number that a template can hold across a bound below `2 ^ 53`. -/
theorem exists_trunc?_ofNat {n : Nat} (h : n < 2 ^ 64) :
    ∃ k : Nat, (ofNat n).trunc? = some (k : Int) ∧
      ∀ bound < 2 ^ 53, bound < k ↔ bound < n := by
  by_cases hn : n ≤ 2 ^ 53
  · exact ⟨n, trunc?_ofNat hn, fun _ _ => Iff.rfl⟩
  · have hunits := le_nearestUnits (Nat.le_of_not_le hn) 1074
    rw [← unitsPerOne] at hunits
    have hle := (Nat.le_div_iff_mul_le unitsPerOne_pos).mpr hunits
    refine ⟨nearestUnits (n * unitsPerOne) 1 / unitsPerOne, trunc?_ofRatio_one false h, ?_⟩
    intro bound hbound
    omega

end CellMachine.Double
