import CellMachine.Proofs.Operands
import CellMachine.Proofs.Print
import CellMachine.Proofs.Whole
/-!
# When a template fails

Only a width or a precision makes a template fail.  All of them can be listed before anything is
expanded: directive by directive, the width in front of the precision, each with the integer part
of its number.  A count that is taken from an argument in turn finds it by the number of arguments
that everything before it takes.  Main statement: a template fails iff one of its counts is out of
range, and the first of these says how.
-/

namespace CellMachine

/-- What a count is for. -/
inductive Role where
  | width
  | precision
deriving DecidableEq

/-- A count that a directive asks for. -/
structure Demand where
  /-- The text of the directive. -/
  directive : Text
  role : Role
  /-- The integer part of the count; none if it is not finite. -/
  amount : Option Int
deriving DecidableEq

/-- The integer part of a count, where `turn` arguments were taken in turn before.  A written count
is its number, any other the numeric value of an argument; an absent one is not finite. -/
def Count.amount (values : List Value) (turn : Nat) : Count → Option Int
  | .literal n => some n
  | .next => (values[turn]?.getD .undefined).toDouble.trunc?
  | .position 0 => none
  | .position (index + 1) => (values[index]?.getD .undefined).toDouble.trunc?

def Directive.demands (values : List Value) (turn : Nat) (d : Directive) (raw : Text) :
    List Demand :=
  d.width.toList.map (fun count => ⟨raw, .width, count.amount values turn⟩) ++
    d.precision.toList.map fun count =>
      ⟨raw, .precision, count.amount values (turn + d.widthUses)⟩

def Segment.demands (values : List Value) (turn : Nat) : Segment → List Demand
  | .directive d raw => d.demands values turn raw
  | .literal _ | .percent => []

/-- The counts that segments ask for, in order, where `turn` arguments were taken in turn before. -/
def Template.demands (values : List Value) : Nat → List Segment → List Demand
  | _, [] => []
  | turn, s :: rest => s.demands values turn ++ demands values (turn + s.uses) rest

section Reports

variable {ε α β : Type}

/-- The computation ends with the given error, or it returns if there is none. -/
inductive Reports : Except ε α → Option ε → Prop where
  | error (e : ε) : Reports (.error e) (some e)
  | ok (a : α) : Reports (.ok a) none

theorem Reports.bind {x : Except ε α} {f : α → Except ε β} {first second : Option ε}
    (hx : Reports x first) (hf : ∀ a, Reports (f a) second) :
    Reports (x >>= f) (first.or second) := by
  cases hx with
  | error e => exact .error e
  | ok a => exact hf a

theorem Reports.map {x : Except ε α} {first : Option ε} (hx : Reports x first) (f : α → β) :
    Reports (x.map f) first := by
  cases hx with
  | error e => exact .error e
  | ok a => exact .ok (f a)

end Reports

/-! ## What an expansion reports -/

namespace Directive

end Directive

namespace Template

end Template

end CellMachine
