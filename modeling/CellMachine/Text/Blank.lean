import CellMachine.Text.Basic
/-!
# White space

Blanks are the characters with the Unicode property White_Space.
-/

namespace CellMachine.Text

/-- First and last code of each run of blanks, ascending. -/
def blankRanges : List (Nat × Nat) :=
  [(0x09, 0x0D), (0x20, 0x20), (0x85, 0x85), (0xA0, 0xA0), (0x1680, 0x1680), (0x2000, 0x200A),
    (0x2028, 0x2029), (0x202F, 0x202F), (0x205F, 0x205F), (0x3000, 0x3000)]

/-- Whether a character is white space. -/
def isBlank (c : Char) : Bool :=
  blankRanges.any fun range => range.1 ≤ c.toNat && c.toNat ≤ range.2

/-- The text from its first character that is no blank. -/
def trimStart (text : Text) : Text := text.dropWhile isBlank

/-- The text without blanks at either end. -/
def trim (text : Text) : Text := (text.trimStart.reverse.dropWhile isBlank).reverse

/-- No digit is a blank. -/
theorem isBlank_eq_false_of_isDigit {c : Char} (h : c.isDigit) : isBlank c = false := by
  simp only [Char.isDigit, Bool.and_eq_true, decide_eq_true_eq] at h
  have hlower : 48 ≤ c.toNat := h.1
  have hupper : c.toNat ≤ 57 := h.2
  simp [isBlank, blankRanges]
  omega

end CellMachine.Text
