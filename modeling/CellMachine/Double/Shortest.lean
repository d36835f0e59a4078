import CellMachine.Double.Digits
/-!
# Shortest text

A double is displayed with the fewest digits that read back as the same number, in positional
notation.  Of two candidates that both read back the nearer one is taken, and the upper one if they
are equally near.
-/

namespace CellMachine.Double

/-- Whether `digits * 10 ^ exponent` reads as the magnitude. -/
def readsBack (units digits : Nat) (exponent : Int) : Bool :=
  match ofDecimal false digits exponent with
  | .finite _ read _ => read == units
  | _ => false

/-- The multiple of `10 ^ exponent` next to the magnitude that reads back, if there is one. -/
def candidate? (units : Nat) (exponent : Int) : Option Nat :=
  let quotient := shifted units (-exponent)
  let low := quotient.1 / quotient.2
  let lowNearer := 2 * (quotient.1 % quotient.2) < quotient.2
  match readsBack units low exponent, readsBack units (low + 1) exponent with
  | true, true => some (if lowNearer then low else low + 1)
  | true, false => some low
  | false, true => some (low + 1)
  | false, false => none

/-- The fewest digits that read back, as a whole number, and the exponent of their last place.
Seventeen always suffice; the exact value stands behind them. -/
def shortestDigits (units : Nat) : Nat × Int :=
  let top := decimalExponent units
  let found := (List.range 17).findSome? fun (places : Nat) =>
    (candidate? units (top - places)).map fun digits => (digits, top - places)
  found.getD (units * 5 ^ (1074 : Nat), -1074)

/-- `digits * 10 ^ exponent` without an exponent. -/
def positional (digits : Nat) : Int → Text
  | .ofNat exponent => Numeral.digits 10 (digits * 10 ^ exponent)
  | .negSucc exponent => Numeral.stripFraction (Numeral.pointed digits (exponent + 1))

/-- The text that stands for a double. -/
def display : Double → Text
  | .nan => "NaN".toList
  | .infinite negative => if negative then "-inf".toList else "inf".toList
  | .finite negative units _ =>
    let magnitude :=
      if units = 0 then ['0']
      else positional (shortestDigits units).1 (shortestDigits units).2
    if negative then '-' :: magnitude else magnitude

end CellMachine.Double
