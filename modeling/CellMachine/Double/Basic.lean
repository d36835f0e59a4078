import CellMachine.Rounding
/-!
# Doubles

A finite IEEE 754 binary64 number is a whole multiple of `2 ^ -1074`, the least positive one.  It is
kept as that multiple, so comparison, truncation and decimal notation are exact arithmetic on
naturals.  Main statement: `representable_nearestUnits`, rounding yields multiples that a double can
hold.
-/

namespace CellMachine

/-- A multiple of `2 ^ -1074` that a double can hold: 53 significant bits, and below `2 ^ 1024`. -/
def Representable (units : Nat) : Prop :=
  ∃ significand shift : Nat,
    significand < 2 ^ (53 : Nat) ∧ shift ≤ 2045 ∧ units = significand * 2 ^ shift

/-- An IEEE 754 binary64 number.  A finite one has a sign and a magnitude in units of `2 ^ -1074`;
zero has both signs. -/
inductive Double where
  | nan
  | infinite (negative : Bool)
  | finite (negative : Bool) (units : Nat) (representable : Representable units)
deriving DecidableEq

namespace Double

/-- How many units make one. -/
def unitsPerOne : Nat := 2 ^ (1074 : Nat)

theorem unitsPerOne_pos : 0 < unitsPerOne := by
  rw [unitsPerOne]
  apply Nat.pow_pos
  decide

/-- The magnitude from which on a number is infinite, `2 ^ 1024` in units. -/
def overflowUnits : Nat := 2 ^ (2098 : Nat)

/-- The distance between neighbouring doubles from `units` up to the next power of two. -/
def spacing (units : Nat) : Nat := 2 ^ (units.log2 - 52)

/-- `num / den` units rounded to 53 significant bits, halfway cases to the even significand. -/
def nearestUnits (num den : Nat) : Nat :=
  halfEven num (den * spacing (num / den)) * spacing (num / den)

/-- The significand that `nearestUnits` rounds to has 53 bits, or is the next power of two. -/
theorem halfEven_spacing_le (num den : Nat) :
    halfEven num (den * spacing (num / den)) ≤ 2 ^ (53 : Nat) := by
  have hbound : num / den < 2 ^ (53 : Nat) * spacing (num / den) := by
    rw [spacing, ← Nat.pow_add]
    exact Nat.lt_of_lt_of_le Nat.lt_log2_self (Nat.pow_le_pow_right (by omega) (by omega))
  have hquotient : num / (den * spacing (num / den)) < 2 ^ (53 : Nat) := by
    rw [← Nat.div_div_eq_div_mul]
    exact Nat.div_lt_of_lt_mul (by rwa [Nat.mul_comm] at hbound)
  have hround := halfEven_le_div_add_one num (den * spacing (num / den))
  omega

/-- Above 53 bits the significand is at least `2 ^ 52`. -/
theorem le_halfEven_spacing {num den : Nat} (h : 52 < (num / den).log2) :
    2 ^ (52 : Nat) ≤ halfEven num (den * spacing (num / den)) := by
  have hne : num / den ≠ 0 := by
    intro hzero
    rw [hzero] at h
    simp at h
  have hbound : spacing (num / den) * 2 ^ (52 : Nat) ≤ num / den := by
    rw [spacing, ← Nat.pow_add, Nat.sub_add_cancel (by omega)]
    exact Nat.log2_self_le hne
  have hquotient : 2 ^ (52 : Nat) ≤ num / (den * spacing (num / den)) := by
    rw [← Nat.div_div_eq_div_mul]
    exact (Nat.le_div_iff_mul_le (Nat.two_pow_pos _)).mpr (by rwa [Nat.mul_comm] at hbound)
  exact Nat.le_trans hquotient (div_le_halfEven _ _)

private theorem shift_lt_of_mul_lt {significand shift bits total : Nat}
    (hlarge : 2 ^ bits ≤ significand) (hsmall : significand * 2 ^ shift < 2 ^ total) :
    bits + shift < total := by
  have hpow : 2 ^ (bits + shift) < 2 ^ total := by
    rw [Nat.pow_add]
    exact Nat.lt_of_le_of_lt (Nat.mul_le_mul_right _ hlarge) hsmall
  exact (Nat.pow_lt_pow_iff_right (by omega)).mp hpow

/-- What rounding yields below `2 ^ 1024` is a double. -/
theorem representable_nearestUnits {num den : Nat} (h : nearestUnits num den < overflowUnits) :
    Representable (nearestUnits num den) := by
  have hupper := halfEven_spacing_le num den
  simp only [nearestUnits] at h ⊢
  generalize hround : halfEven num (den * spacing (num / den)) = significand at h hupper ⊢
  by_cases htop : significand = 2 ^ (53 : Nat)
  · refine ⟨2 ^ (52 : Nat), (num / den).log2 - 52 + 1, by omega, ?_, ?_⟩
    · have hshift := shift_lt_of_mul_lt (Nat.le_of_eq htop.symm) h
      omega
    · rw [htop, spacing, Nat.pow_succ, Nat.pow_succ]
      omega
  · by_cases hwide : 52 < (num / den).log2
    · have hlower := le_halfEven_spacing hwide
      rw [hround] at hlower
      have hshift := shift_lt_of_mul_lt hlower h
      exact ⟨significand, (num / den).log2 - 52, by omega, by omega, rfl⟩
    · refine ⟨significand, 0, by omega, by omega, ?_⟩
      rw [spacing, Nat.sub_eq_zero_of_le (by omega)]

/-- The double nearest to `num / den` units, infinite from `2 ^ 1024` on. -/
def ofUnits (negative : Bool) (num den : Nat) : Double :=
  if h : nearestUnits num den < overflowUnits then
    .finite negative (nearestUnits num den) (representable_nearestUnits h)
  else .infinite negative

/-- The double nearest to `num / den`. -/
def ofRatio (negative : Bool) (num den : Nat) : Double := ofUnits negative (num * unitsPerOne) den

/-- The double nearest to a natural number. -/
def ofNat (n : Nat) : Double := ofRatio false n 1

/-- The double nearest to an integer; zero is positive. -/
def ofInt (n : Int) : Double := ofRatio (n < 0) n.natAbs 1

/-- The double nearest to `±digits * 10 ^ exponent`. -/
def ofDecimal (negative : Bool) (digits : Nat) : Int → Double
  | .ofNat exponent => ofRatio negative (digits * 10 ^ exponent) 1
  | .negSucc exponent => ofRatio negative digits (10 ^ (exponent + 1))

/-- Positive zero. -/
def zero : Double := .finite false 0 ⟨0, 0, by decide, by decide, rfl⟩

/-- Neither infinite nor NaN. -/
def isFinite : Double → Bool
  | .finite .. => true
  | _ => false

/-- Below zero: neither zero counts, nor NaN. -/
def isNegative : Double → Bool
  | .nan => false
  | .infinite negative => negative
  | .finite negative units _ => negative && units != 0

/-- Numeric equality: NaN differs from itself and the two zeros are equal. -/
def equals : Double → Double → Bool
  | .infinite a, .infinite b => a == b
  | .finite a x _, .finite b y _ => x == y && (a == b || x == 0)
  | _, _ => false

/-- The integer part, toward zero; none of a number that is not finite. -/
def trunc? : Double → Option Int
  | .finite negative units _ =>
    let whole := units / unitsPerOne
    some (if negative then -(whole : Int) else whole)
  | _ => none

/-- The integer part as a 64-bit integer, the nearest bound if it is out of range; zero for a number
that is not finite. -/
def toInt64 (x : Double) : Int64 := Int64.ofIntClamp (x.trunc?.getD 0)

/-- The integer part modulo `2 ^ 32`; zero for a number that is not finite. -/
def toUInt32 (x : Double) : UInt32 := UInt32.ofNat ((x.trunc?.getD 0) % 2 ^ (32 : Nat)).toNat

end Double

end CellMachine
