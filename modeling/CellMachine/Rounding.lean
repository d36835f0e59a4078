/-!
# Rounding a quotient

`halfEven num den` is the integer nearest to `num / den`; halfway between two integers it is the
even one.
-/

namespace CellMachine

-- A power of a natural number is the core library's in every module, whatever that module imports.
attribute [scoped instance(20000)] instPowNat

/-- The integer nearest to `num / den`, the even one of two that are equally near. -/
def halfEven (num den : Nat) : Nat :=
  let quotient := num / den
  let remainder := num % den
  if 2 * remainder < den then quotient
  else if den < 2 * remainder then quotient + 1
  else quotient + quotient % 2

theorem div_le_halfEven (num den : Nat) : num / den ≤ halfEven num den := by
  simp only [halfEven]
  split
  · exact Nat.le_refl _
  · split <;> omega

theorem halfEven_le_div_add_one (num den : Nat) : halfEven num den ≤ num / den + 1 := by
  simp only [halfEven]
  split
  · omega
  · split <;> omega

/-- A whole quotient is not changed. -/
theorem halfEven_mul_self (quotient : Nat) {den : Nat} (h : 0 < den) :
    halfEven (quotient * den) den = quotient := by
  simp [halfEven, Nat.mul_div_cancel _ h, h]

end CellMachine
