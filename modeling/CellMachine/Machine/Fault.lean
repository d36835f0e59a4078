import CellMachine.Machine.Symbol
import CellMachine.Template.Expand
/-!
# Faults

What can go wrong in a call or in the launch of a program.  Memory access is not among it: every
cell can be read and written.
-/

namespace CellMachine

/-- Why a call or a launch failed. -/
inductive Fault where
  /-- A template was misused. -/
  | format (error : FormatError)
  /-- The initializers of a program have run already. -/
  | initializersAlreadyRun
  /-- No library function has the name. -/
  | unknownSymbol (name : Text)
  /-- A function received fewer values than it needs. -/
  | argumentCount (function : Symbol) (received : Nat)
  /-- A function was to follow a null pointer. -/
  | nullPointer (function : Symbol)
  /-- No program has the name. -/
  | unknownProgram (name : Text)
deriving DecidableEq

namespace Fault

/-- The wording of a fault. -/
def message : Fault → String
  | .format error => "Format error: " ++ error.message
  | .initializersAlreadyRun => "Initializers have already been run"
  | .unknownSymbol name => "Unknown runtime symbol '" ++ String.ofList name ++ "'"
  | .argumentCount function received =>
    "Function '" ++ function.name ++ "' expects " ++
      String.ofList (Numeral.digits 10 function.arity) ++
      (if function.arity = 1 then " argument" else " arguments") ++
      ", got " ++ String.ofList (Numeral.digits 10 received)
  | .nullPointer function => "Null pointer passed to '" ++ function.name ++ "'"
  | .unknownProgram name => "Unknown program '" ++ String.ofList name ++ "'"

end Fault

end CellMachine
