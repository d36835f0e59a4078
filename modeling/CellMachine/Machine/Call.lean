import CellMachine.Machine.Library
/-!
# Calls by name

A program calls a library function by its name with a flat list of values, a pointer being two of
them, and receives result registers: two for a pointer, none for nothing, else one.  The name is
checked first, then the number of values, then the pointers that the function follows, in order.
-/

namespace CellMachine

namespace Action

/-- The value at an index of the flat list. -/
def argument (args : List Value) (i : Nat) : Value := args[i]?.getD .undefined

/-- The pointer at an index of the flat list, which may be null. -/
def pointer? (args : List Value) (i : Nat) : Option Pointer :=
  Pointer.ofPair (argument args i) (argument args (i + 1))

/-- The pointer at an index of the flat list, which may not be null. -/
def pointer (s : Symbol) (args : List Value) (i : Nat) : Action Pointer :=
  match pointer? args i with
  | some p => return p
  | none => throw (.nullPointer s)

/-- The integer at an index of the flat list. -/
def integer (args : List Value) (i : Nat) : Int64 := (argument args i).toInt64

/-- The number at an index of the flat list. -/
def number (args : List Value) (i : Nat) : Double := (argument args i).toDouble

/-- Performs a function on a flat list that is long enough for it. -/
def perform (now : Instant) (s : Symbol) (args : List Value) : Action (List Value) := do
  match s with
  | .printf =>
    let template ← pointer s args 0
    return [.int (← printf template (args.drop 2))]
  | .sprintf =>
    let target ← pointer s args 0
    let template ← pointer s args 2
    return [.int (← sprintf target template (args.drop 4))]
  | .putc => return [.int (← putc (integer args 0) (pointer? args 1))]
  | .putchar => return [.int (← putchar (integer args 0))]
  | .malloc => return (← malloc).toPair
  | .calloc => return (← calloc (integer args 0) (integer args 1)).toPair
  | .realloc => return Pointer.pairOf (← realloc (pointer? args 0))
  | .free =>
    free (pointer? args 0)
    return []
  | .atoi =>
    let text ← pointer s args 0
    return [.int (← atoi text)]
  | .atol =>
    let text ← pointer s args 0
    return [.int (← atol text)]
  | .strcpy =>
    let target ← pointer s args 0
    let source ← pointer s args 2
    return (← strcpy target source).toPair
  | .memset =>
    let target ← pointer s args 0
    return (← memset target (integer args 2) (integer args 3)).toPair
  | .memcpy =>
    let target ← pointer s args 0
    let source ← pointer s args 2
    return (← memcpy target source (integer args 4)).toPair
  | .gettimeofday =>
    let target ← pointer s args 0
    return [.int (← gettimeofday now target)]
  | .sin => return [.float (onFloat Float.sin (number args 0))]
  | .cos => return [.float (onFloat Float.cos (number args 0))]
  | .tan => return [.float (onFloat Float.tan (number args 0))]
  | .atan => return [.float (onFloat Float.atan (number args 0))]
  | .log => return [.float (onFloat Float.log (number args 0))]
  | .exp => return [.float (onFloat Float.exp (number args 0))]
  | .sqrt => return [.float (onFloat Float.sqrt (number args 0))]
  | .pow => return [.float (power (number args 0) (number args 1))]

/-- Calls a library function by name at an instant. -/
def call (now : Instant) (name : Text) (args : List Value) : Action (List Value) :=
  match Symbol.ofName? name with
  | none => throw (.unknownSymbol name)
  | some s =>
    if args.length < s.arity then throw (.argumentCount s args.length)
    else perform now s args

end Action

end CellMachine
