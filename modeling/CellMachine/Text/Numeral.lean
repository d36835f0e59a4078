import CellMachine.Rounding
import CellMachine.Text.Blank
/-!
# Numerals

Positional digits of natural numbers and the readers that accumulate digits from the left: exact,
saturating, and modulo 2^64.
-/

namespace CellMachine.Numeral

/-- The value of a decimal digit. -/
def digitValue (c : Char) : Nat := c.toNat - '0'.toNat

/-- The digits of `n` in `base`, most significant first, with lower-case letters from ten on. -/
def digits (base n : Nat) : Text := Nat.toDigits base n

/-- An integer in decimal, with a sign only if it is negative. -/
def signed (n : Int) : Text :=
  if n < 0 then '-' :: digits 10 n.natAbs else digits 10 n.natAbs

/-- The number that a run of decimal digits denotes. -/
def value (run : Text) : Nat := run.foldl (fun n c => 10 * n + digitValue c) 0

/-- `run` read as a number that stays at `limit` once it would pass it. -/
def saturated (limit : Nat) (run : Text) : Nat :=
  run.foldl (fun n c => min limit (10 * n + digitValue c)) 0

/-- `run` read in 64-bit arithmetic that wraps around. -/
def wrapped (run : Text) : Int64 :=
  run.foldl (fun n c => n * 10 + Int64.ofNat (digitValue c)) 0

/-- At least `count` digits: zeros are put in front of a shorter run. -/
def atLeast (count : Nat) (run : Text) : Text :=
  List.replicate (count - run.length) '0' ++ run

/-- The digits of `scaled / 10 ^ places`, with exactly `places` of them behind a point; no point
stands at the end. -/
def pointed (scaled places : Nat) : Text :=
  if places = 0 then digits 10 scaled
  else digits 10 (scaled / 10 ^ places) ++ '.' :: atLeast places (digits 10 (scaled % 10 ^ places))

/-- Drops trailing zeros behind a point, and then the point if nothing is left behind it. -/
def stripFraction (text : Text) : Text :=
  if text.contains '.' then
    ((text.reverse.dropWhile (· == '0')).dropWhile (· == '.')).reverse
  else text

/-- One sign, if there is one, and the digits behind it, in wrapping 64-bit arithmetic. -/
def signedWrapped : Text → Int64
  | '-' :: rest => -wrapped (rest.takeWhile Char.isDigit)
  | '+' :: rest => wrapped (rest.takeWhile Char.isDigit)
  | text => wrapped (text.takeWhile Char.isDigit)

/-- The integer at the head of a text, behind any blanks; zero if no digit stands there. -/
def leadingInt (text : Text) : Int64 := signedWrapped (Text.trimStart text)

theorem length_atLeast (count : Nat) (run : Text) :
    (atLeast count run).length = max count run.length := by
  simp [atLeast]
  omega

end CellMachine.Numeral
