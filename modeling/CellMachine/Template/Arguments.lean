import CellMachine.Value
import CellMachine.Template.Directive
/-!
# Arguments

The values that a template refers to, in turn or by position.  Looking one up by position does not
change whose turn it is; an absent one is undefined.
-/

namespace CellMachine

/-- Values with a mark at the next one in turn. -/
structure Arguments where
  values : List Value
  cursor : Nat := 0
deriving DecidableEq

namespace Arguments

/-- The value at an index, undefined beyond the end. -/
def get (args : Arguments) (index : Nat) : Value := args.values[index]?.getD .undefined

/-- The next value in turn, and the arguments behind it. -/
def next (args : Arguments) : Value × Arguments :=
  (args.get args.cursor, { args with cursor := args.cursor + 1 })

/-- The value at a position counted from one. -/
def atPosition (args : Arguments) : Nat → Value
  | 0 => .undefined
  | index + 1 => args.get index

/-- The value at a position, or the next one in turn. -/
def pick (args : Arguments) : Option Nat → Value × Arguments
  | some position => (args.atPosition position, args)
  | none => args.next

/-- The number that a count stands for. -/
def count (args : Arguments) : Count → Double × Arguments
  | .literal n => (.ofNat n, args)
  | .next => (args.next.1.toDouble, args.next.2)
  | .position n => ((args.atPosition n).toDouble, args)

end Arguments

end CellMachine
