import CellMachine.Memory.Terminated
/-!
# Variadic arguments

A pointer is passed as two values and everything else as one, without a mark that tells which is
which.  The pairs are found by their shape: a value before a null, undefined or block value begins
one.
-/

namespace CellMachine

/-- An argument of a variadic function. -/
inductive Vararg where
  | scalar (v : Value)
  /-- A pointer; none is null. -/
  | pointer (p : Option Pointer)
deriving DecidableEq

namespace Vararg

/-- The arguments in a list of values. -/
def classify : List Value → List Vararg
  | [] => []
  | [v] => [.scalar v]
  | v :: tail :: rest =>
    if tail.isPointerTail then .pointer (Pointer.ofPair v tail) :: classify rest
    else .scalar v :: classify (tail :: rest)

/-- The values that an argument is passed as. -/
def flatten : Vararg → List Value
  | .scalar v => [v]
  | .pointer p => Pointer.pairOf p

/-- What a template sees of an argument: a pointer is followed to its text. -/
def resolve (m : Memory) : Vararg → Value
  | .scalar v => v
  | .pointer (some p) => .str (m.textAt p)
  | .pointer none => .str "(null)".toList

/-- What a template sees of a list of values. -/
def resolveAll (m : Memory) (values : List Value) : List Value :=
  (classify values).map (resolve m)

end Vararg

end CellMachine
