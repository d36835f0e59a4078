import CellMachine.Text.Basic
/-!
# Symbols

The C library functions that a machine provides, by name.
-/

namespace CellMachine

/-- A library function. -/
inductive Symbol where
  | printf | sprintf | putc | putchar
  | malloc | calloc | realloc | free
  | atoi | atol
  | strcpy | memset | memcpy
  | gettimeofday
  | sin | cos | tan | atan | log | exp | sqrt | pow
deriving DecidableEq

namespace Symbol

/-- Every library function. -/
def all : List Symbol :=
  [.printf, .sprintf, .putc, .putchar, .malloc, .calloc, .realloc, .free, .atoi, .atol, .strcpy,
    .memset, .memcpy, .gettimeofday, .sin, .cos, .tan, .atan, .log, .exp, .sqrt, .pow]

/-- The name that a function is called by. -/
def name : Symbol → String
  | .printf => "printf"
  | .sprintf => "sprintf"
  | .putc => "putc"
  | .putchar => "putchar"
  | .malloc => "malloc"
  | .calloc => "calloc"
  | .realloc => "realloc"
  | .free => "free"
  | .atoi => "atoi"
  | .atol => "atol"
  | .strcpy => "strcpy"
  | .memset => "memset"
  | .memcpy => "memcpy"
  | .gettimeofday => "gettimeofday"
  | .sin => "sin"
  | .cos => "cos"
  | .tan => "tan"
  | .atan => "atan"
  | .log => "log"
  | .exp => "exp"
  | .sqrt => "sqrt"
  | .pow => "pow"

/-- The function with a name. -/
def ofName? (name : Text) : Option Symbol := all.find? fun s => s.name.toList == name

/-- How many values a call needs; a pointer counts as two, save that the block of the one given to
`free` may be left out. -/
def arity : Symbol → Nat
  | .printf => 2
  | .sprintf => 4
  | .putc => 3
  | .putchar => 1
  | .malloc => 1
  | .calloc => 2
  | .realloc => 3
  | .free => 1
  | .atoi | .atol => 2
  | .strcpy => 4
  | .memset => 4
  | .memcpy => 5
  | .gettimeofday => 2
  | .sin | .cos | .tan | .atan | .log | .exp | .sqrt => 1
  | .pow => 2

theorem mem_all (s : Symbol) : s ∈ all := by
  cases s <;> decide

end Symbol

end CellMachine
