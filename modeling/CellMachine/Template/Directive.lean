import CellMachine.Text.Numeral
/-!
# Directives

A template is literal text with directives in it.  A directive names a conversion and says how the
value is laid out: flags, a width and a precision, each of the two a number or taken from an
argument.
-/

namespace CellMachine

/-- The flags `-`, `+`, space, `0` and `#`. -/
structure Flags where
  left : Bool := false
  plus : Bool := false
  space : Bool := false
  zero : Bool := false
  alternate : Bool := false
deriving DecidableEq

namespace Flags

/-- Whether a character is a flag. -/
def isFlag (c : Char) : Bool := c == '-' || c == '+' || c == ' ' || c == '0' || c == '#'

/-- The flags that occur in a run of characters. -/
def ofText (run : Text) : Flags where
  left := run.contains '-'
  plus := run.contains '+'
  space := run.contains ' '
  zero := run.contains '0'
  alternate := run.contains '#'

/-- The flags that are set, each once. -/
def toText (f : Flags) : Text :=
  (if f.left then ['-'] else []) ++ (if f.plus then ['+'] else []) ++
    (if f.space then [' '] else []) ++ (if f.zero then ['0'] else []) ++
    (if f.alternate then ['#'] else [])

/-- The sign in front of a number that is not negative. -/
def positiveSign (f : Flags) : Text := if f.plus then ['+'] else if f.space then [' '] else []

end Flags

/-- Where a width or a precision comes from. -/
inductive Count where
  /-- Digits in the template. -/
  | literal (n : Nat)
  /-- The next argument in turn, `*`. -/
  | next
  /-- The argument at a position counted from one, `*N$`. -/
  | position (n : Nat)
deriving DecidableEq

/-- How a value is turned into text. -/
inductive Conversion where
  | str
  | char
  | binary
  | octal
  | hex (upper : Bool)
  | unsigned
  | decimal
  | exponent (upper : Bool)
  | fixed (upper : Bool)
  | general (upper : Bool)
deriving DecidableEq

namespace Conversion

/-- The conversion that a letter names. -/
def ofLetter? : Char → Option Conversion
  | 's' => some .str
  | 'c' => some .char
  | 'b' => some .binary
  | 'o' => some .octal
  | 'x' => some (.hex false)
  | 'X' => some (.hex true)
  | 'u' => some .unsigned
  | 'd' | 'i' => some .decimal
  | 'e' => some (.exponent false)
  | 'E' => some (.exponent true)
  | 'f' => some (.fixed false)
  | 'F' => some (.fixed true)
  | 'g' => some (.general false)
  | 'G' => some (.general true)
  | _ => none

/-- The letter that names a conversion. -/
def letter : Conversion → Char
  | .str => 's'
  | .char => 'c'
  | .binary => 'b'
  | .octal => 'o'
  | .hex upper => if upper then 'X' else 'x'
  | .unsigned => 'u'
  | .decimal => 'd'
  | .exponent upper => if upper then 'E' else 'e'
  | .fixed upper => if upper then 'F' else 'f'
  | .general upper => if upper then 'G' else 'g'

/-- The precision of a directive that gives none. -/
def defaultPrecision : Conversion → Option Nat
  | .exponent _ | .fixed _ | .general _ => some 6
  | .decimal => some 0
  | _ => none

/-- Whether the text is written in upper case. -/
def isUpper : Conversion → Bool
  | .hex upper | .exponent upper | .fixed upper | .general upper => upper
  | _ => false

theorem ofLetter?_letter (c : Conversion) : ofLetter? c.letter = some c := by
  cases c with
  | hex upper | exponent upper | fixed upper | general upper => cases upper <;> rfl
  | _ => rfl

end Conversion

/-- One directive of a template. -/
structure Directive where
  /-- The argument to convert, counted from one; the next one in turn if absent. -/
  position : Option Nat := none
  flags : Flags := {}
  width : Option Count := none
  precision : Option Count := none
  conversion : Conversion
deriving DecidableEq

/-- A piece of a template. -/
inductive Segment where
  /-- Text that stands for itself. -/
  | literal (text : Text)
  /-- A doubled percent sign. -/
  | percent
  /-- A directive and the text that it was read from. -/
  | directive (d : Directive) (raw : Text)
deriving DecidableEq

end CellMachine
