import CellMachine.Double.Basic
import CellMachine.Text.Numeral
/-!
# Decimal digits of doubles

The digits of a magnitude, rounded from its exact value at a set place or to a set number of
significant digits.  Magnitudes are in units of `2 ^ -1074`.
-/

namespace CellMachine.Double

/-- A magnitude times `10 ^ shift`, as a quotient of naturals. -/
def shifted (units : Nat) : Int → Nat × Nat
  | .ofNat shift => (units * 10 ^ shift, unitsPerOne)
  | .negSucc shift => (units, unitsPerOne * 10 ^ (shift + 1))

/-- The exponent of the power of ten at or below a magnitude; zero has none, and gets one that is
not used. -/
def decimalExponent (units : Nat) : Int :=
  if unitsPerOne ≤ units then ((Numeral.digits 10 (units / unitsPerOne)).length : Int) - 1
  else -((Numeral.digits 10 ((unitsPerOne - 1) / units)).length : Int)

/-- A magnitude in units of `10 ^ -places`, halfway cases to the even one. -/
def fixedDigits (units places : Nat) : Nat :=
  halfEven (units * 10 ^ places) unitsPerOne

/-- A magnitude rounded to one digit before the point and `places` behind it: the digits as a whole
number, and the decimal exponent of the first.  A carry out of the first digit raises the
exponent. -/
def significantDigits (units places : Nat) : Nat × Int :=
  if units = 0 then (0, 0)
  else
    let exponent := decimalExponent units
    let quotient := shifted units (places - exponent)
    let rounded := halfEven quotient.1 quotient.2
    if rounded = 10 ^ (places + 1) then (10 ^ places, exponent + 1) else (rounded, exponent)

end CellMachine.Double
