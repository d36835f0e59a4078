import CellMachine.Double.Digits
/-!
# Fixed, exponential and general notation

The three ways to write a magnitude with a given precision.
-/

namespace CellMachine.Double

/-- The most places that are computed.  No double has more digits than this behind its point, so
all places beyond are zeros. -/
def placesLimit : Nat := 1100

/-- Zeros for the places beyond the limit. -/
def paddedPlaces (places : Nat) : Text := List.replicate (places - placesLimit) '0'

/-- A magnitude with exactly `places` digits behind the point. -/
def fixed (units places : Nat) : Text :=
  let exact := min places placesLimit
  Numeral.pointed (fixedDigits units exact) exact ++ paddedPlaces places

/-- One digit before the point and `places` behind it, and the decimal exponent. -/
def scientific (units places : Nat) : Text × Int :=
  let exact := min places placesLimit
  let rounded := significantDigits units exact
  (Numeral.pointed rounded.1 exact ++ paddedPlaces places, rounded.2)

/-- The decimal exponent of that notation. -/
def scientificExponent (units places : Nat) : Int :=
  (significantDigits units (min places placesLimit)).2

/-- An exponent is written with its sign and at least two digits. -/
def exponentText (exponent : Int) : Text :=
  (if exponent < 0 then '-' else '+') :: Numeral.atLeast 2 (Numeral.digits 10 exponent.natAbs)

/-- Digits, the mark and the exponent. -/
def withExponent (mantissa : Text) (exponent : Int) : Text :=
  mantissa ++ 'e' :: exponentText exponent

/-- A magnitude in exponential notation. -/
def exponential (units places : Nat) : Text :=
  withExponent (scientific units places).1 (scientific units places).2

/-- How many digits general notation writes behind the point in its fixed form, in 32-bit
arithmetic. -/
def generalDecimals (significant : Nat) (exponent : Int) : Int32 :=
  max (Int32.ofNat significant - 1 - Int32.ofInt exponent) 0

/-- Whether that number is beyond 32 bits in a fixed form.  Arithmetic that is checked stops there,
and arithmetic that is not checked wraps around. -/
def generalOverflows (units precision : Nat) : Bool :=
  let significant := Int32.ofNat (max precision 1)
  let exponent := scientificExponent units (max precision 1 - 1)
  decide (-4 ≤ exponent ∧ Int32.ofInt exponent < significant ∧
    Int32.maxValue.toInt < significant.toInt - 1 - exponent)

/-- A magnitude with `precision` significant digits: fixed notation while the exponent is at least
-4 and below the precision, else exponential; `alternate` keeps trailing zeros. -/
def general (units precision : Nat) (alternate : Bool) : Text :=
  let significant := max precision 1
  let parts := scientific units (significant - 1)
  let trimmed (text : Text) := if alternate then text else Numeral.stripFraction text
  if parts.2 < -4 ∨ Int32.ofNat significant ≤ Int32.ofInt parts.2 then
    withExponent (trimmed parts.1) parts.2
  else trimmed (fixed units (generalDecimals significant parts.2).toNatClampNeg)

end CellMachine.Double
