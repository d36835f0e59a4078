import CellMachine.Text.Basic
/-!
# Character codes

Characters are stored as their Unicode codes in 64-bit integers; a code that no character has reads
as the replacement character.
-/

namespace CellMachine.Text

/-- Stands for a code that no character has. -/
def replacement : Char := Char.ofNat 0xFFFD

/-- The character with a code. -/
def ofCode (code : Int64) : Char :=
  if 0 ≤ code.toInt ∧ code.toInt.toNat.isValidChar then Char.ofNat code.toInt.toNat
  else replacement

/-- The code of a character. -/
def toCode (c : Char) : Int64 := Int64.ofNat c.toNat

end CellMachine.Text
