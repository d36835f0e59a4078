import CellMachine.Double.Basic
import CellMachine.Text.Numeral
/-!
# Reading doubles

The numeral of a double: an optional sign, then `inf`, `infinity` or `nan` in any case, or decimal
digits with at most one point among them and an optional exponent.  The nearest double is read.
-/

namespace CellMachine.Double

/-- The digits of an exponent; once it reaches `2 ^ 16` further digits do not count, since no double
is that far from one. -/
def exponentValue (run : Text) : Nat :=
  run.foldl (fun n c => if n < 2 ^ (16 : Nat) then 10 * n + Numeral.digitValue c else n) 0

/-- Digits and nothing else. -/
def exponentDigits? (text : Text) : Option Nat :=
  if text ≠ [] ∧ text.all Char.isDigit then some (exponentValue text) else none

/-- An exponent with its optional sign. -/
def signedExponent? : Text → Option Int
  | '-' :: rest => (exponentDigits? rest).map fun n => -(n : Int)
  | '+' :: rest => (exponentDigits? rest).map fun n => (n : Int)
  | text => (exponentDigits? text).map fun n => (n : Int)

/-- What follows the digits: nothing, or a mark and an exponent. -/
def exponent? : Text → Option Int
  | [] => some 0
  | mark :: rest => if mark = 'e' ∨ mark = 'E' then signedExponent? rest else none

/-- The digits behind a point, if there is one, and what follows. -/
def fraction : Text → Text × Text
  | '.' :: rest => (rest.takeWhile Char.isDigit, rest.dropWhile Char.isDigit)
  | text => ([], text)

/-- Decimal digits with at least one digit before or behind the point. -/
def decimal? (negative : Bool) (text : Text) : Option Double :=
  let whole := text.takeWhile Char.isDigit
  let rest := fraction (text.dropWhile Char.isDigit)
  if whole ++ rest.1 = [] then none
  else (exponent? rest.2).map fun exponent =>
    ofDecimal negative (Numeral.value (whole ++ rest.1)) (exponent - rest.1.length)

/-- A numeral behind its sign. -/
def unsigned? (negative : Bool) (text : Text) : Option Double :=
  let word := text.map Char.toLower
  if word = "inf".toList ∨ word = "infinity".toList then some (.infinite negative)
  else if word = "nan".toList then some .nan
  else decimal? negative text

/-- The double that a text denotes, if it is a numeral. -/
def read? : Text → Option Double
  | '-' :: rest => unsigned? true rest
  | '+' :: rest => unsigned? false rest
  | text => unsigned? false text

end CellMachine.Double
