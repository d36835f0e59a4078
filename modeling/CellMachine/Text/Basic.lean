/-!
# Text

Text is a list of characters, so every length, cut and column in this library counts characters.
-/

namespace CellMachine

/-- A sequence of Unicode scalar values. -/
abbrev Text := List Char

namespace Text

/-- ASCII letters in upper case; every other character stays. -/
def upper (text : Text) : Text := text.map Char.toUpper

/-- Splits `text` after the characters that fill its first `bytes` bytes of UTF-8; a character that
only begins within them goes to the second part. -/
def splitBytes : Nat → Text → Text × Text
  | _, [] => ([], [])
  | bytes, c :: rest =>
    if c.utf8Size ≤ bytes then
      let parts := splitBytes (bytes - c.utf8Size) rest
      (c :: parts.1, parts.2)
    else ([], c :: rest)

/-- A split loses nothing. -/
theorem splitBytes_append (bytes : Nat) (text : Text) :
    (splitBytes bytes text).1 ++ (splitBytes bytes text).2 = text := by
  fun_induction splitBytes bytes text <;> simp_all +zetaDelta

end Text

end CellMachine
