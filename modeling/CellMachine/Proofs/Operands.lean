import Mathlib.Algebra.GroupWithZero.Nat
import CellMachine.Template.Expand
/-!
# What a directive takes

A directive finds up to three operands among the arguments: the number of its width, the number of
its precision, and its value.  Some of them are taken in turn, and how many is a matter of the
directive alone.  Main statement: the text of a directive depends on its operands and on nothing
else of the arguments, and those behind it are the ones that it did not take in turn.
-/

namespace CellMachine

/-- How many arguments a count takes in turn. -/
def Count.uses : Count → Nat
  | .next => 1
  | .literal _ | .position _ => 0

namespace Arguments

/-- The arguments behind the next `n` in turn. -/
def skip (args : Arguments) (n : Nat) : Arguments := { args with cursor := args.cursor + n }

@[simp] theorem skip_zero (args : Arguments) : args.skip 0 = args := rfl

@[simp] theorem skip_skip (args : Arguments) (n k : Nat) :
    (args.skip n).skip k = args.skip (n + k) := by
  simp only [skip, Nat.add_assoc]

theorem atPosition_succ (args : Arguments) (index : Nat) :
    args.atPosition (index + 1) = args.get index := rfl

@[simp] theorem snd_count (args : Arguments) (count : Count) :
    (args.count count).2 = args.skip count.uses := by
  cases count <;> rfl

@[simp] theorem snd_pick (args : Arguments) (position : Option Nat) :
    (args.pick position).2 = args.skip (if position = none then 1 else 0) := by
  cases position <;> rfl

end Arguments

namespace Directive

def widthUses (d : Directive) : Nat := d.width.elim 0 Count.uses

def precisionUses (d : Directive) : Nat := d.precision.elim 0 Count.uses

/-- How many arguments a directive takes in turn. -/
def uses (d : Directive) : Nat :=
  d.widthUses + d.precisionUses + if d.position = none then 1 else 0

/-- What a directive finds among the arguments. -/
structure Operands where
  width : Option Double
  precision : Option Double
  value : Value

def operands (d : Directive) (args : Arguments) : Operands where
  width := d.width.map fun count => (args.count count).1
  precision := d.precision.map fun count => ((args.skip d.widthUses).count count).1
  value := ((args.skip (d.widthUses + d.precisionUses)).pick d.position).1

/-- A number as a width, and whether it is negative. -/
def checkWidth (raw : Text) (x : Double) : Except FormatError (Nat × Bool) :=
  match x.trunc? with
  | none => .error (.nonFiniteWidth raw)
  | some width =>
    if countLimit < width.natAbs then .error (.widthOverflow raw)
    else .ok (width.natAbs, x.isNegative)

/-- A number as a precision, for a conversion that has one of its own. -/
def checkPrecision (raw : Text) (conversion : Conversion) (x : Double) :
    Except FormatError (Option Nat) :=
  match x.trunc? with
  | none => .error (.nonFinitePrecision raw)
  | some precision =>
    if x.isNegative then .ok conversion.defaultPrecision
    else if countLimit < precision.natAbs then .error (.precisionOverflow raw)
    else .ok (some precision.natAbs)

def layout (d : Directive) (raw : Text) (found : Operands) : Except FormatError Layout := do
  let width ← found.width.elim (.ok (0, false)) (checkWidth raw)
  let precision ← found.precision.elim (.ok d.conversion.defaultPrecision)
    (checkPrecision raw d.conversion)
  return { flags := { d.flags with left := d.flags.left || width.2 }
           width := width.1
           precision := precision
           conversion := d.conversion }

theorem layout_of_ok (d : Directive) {raw : Text} (found : Operands) {width : Nat × Bool}
    {precision : Option Nat}
    (hwidth : found.width.elim (.ok (0, false)) (checkWidth raw) = .ok width)
    (hprecision : found.precision.elim (.ok d.conversion.defaultPrecision)
      (checkPrecision raw d.conversion) = .ok precision) :
    d.layout raw found =
      .ok { flags := { d.flags with left := d.flags.left || width.2 }
            width := width.1
            precision := precision
            conversion := d.conversion } := by
  rw [layout, hwidth, hprecision]
  rfl

theorem exists_of_layout_eq_ok {d : Directive} {raw : Text} {found : Operands} {layout : Layout}
    (h : d.layout raw found = .ok layout) :
    ∃ width precision, found.width.elim (.ok (0, false)) (checkWidth raw) = .ok width ∧
      found.precision.elim (.ok d.conversion.defaultPrecision)
        (checkPrecision raw d.conversion) = .ok precision ∧
      layout = { flags := { d.flags with left := d.flags.left || width.2 }
                 width := width.1
                 precision := precision
                 conversion := d.conversion } := by
  unfold Directive.layout at h
  cases hwidth : found.width.elim (.ok (0, false)) (checkWidth raw) with
  | error e =>
      rw [hwidth] at h
      cases h
  | ok width =>
      cases hprecision : found.precision.elim (.ok d.conversion.defaultPrecision)
          (checkPrecision raw d.conversion) with
      | error e =>
          rw [hwidth, hprecision] at h
          cases h
      | ok precision =>
          rw [hwidth, hprecision] at h
          exact ⟨width, precision, rfl, rfl, (Except.ok.inj h).symm⟩

theorem resolveWidth_eq (d : Directive) (raw : Text) (args : Arguments) :
    d.resolveWidth raw args =
      ((d.operands args).width.elim (.ok (0, false)) (checkWidth raw)).map
        (·, args.skip d.widthUses) := by
  unfold resolveWidth operands widthUses
  cases d.width with
  | none => rfl
  | some count =>
      simp only [Option.map_some, Option.elim_some, checkWidth, Arguments.snd_count]
      cases (args.count count).1.trunc? with
      | none => rfl
      | some width =>
          simp only
          split <;> rfl

theorem resolvePrecision_eq (d : Directive) (raw : Text) (args : Arguments) :
    d.resolvePrecision raw (args.skip d.widthUses) =
      ((d.operands args).precision.elim (.ok d.conversion.defaultPrecision)
        (checkPrecision raw d.conversion)).map
        (·, args.skip (d.widthUses + d.precisionUses)) := by
  unfold resolvePrecision operands precisionUses
  cases d.precision with
  | none => rfl
  | some count =>
      simp only [Option.map_some, Option.elim_some, checkPrecision, Arguments.snd_count,
        Arguments.skip_skip]
      cases ((args.skip d.widthUses).count count).1.trunc? with
      | none => rfl
      | some precision =>
          simp only
          split
          · rfl
          · split <;> rfl

theorem resolve_eq (d : Directive) (raw : Text) (args : Arguments) :
    d.resolve raw args =
      (d.layout raw (d.operands args)).map (·, args.skip (d.widthUses + d.precisionUses)) := by
  unfold resolve layout
  rw [resolveWidth_eq]
  cases (d.operands args).width.elim (.ok (0, false)) (checkWidth raw) with
  | error e => rfl
  | ok width =>
      show d.resolvePrecision raw (args.skip d.widthUses) >>= _ = _
      rw [resolvePrecision_eq]
      cases (d.operands args).precision.elim (.ok d.conversion.defaultPrecision)
        (checkPrecision raw d.conversion) <;> rfl

end Directive

namespace Segment

def uses : Segment → Nat
  | .directive d _ => d.uses
  | .literal _ | .percent => 0

def text (m : Memory) (args : Arguments) : Segment → Except FormatError Text
  | .literal text => .ok text
  | .percent => .ok ['%']
  | .directive d raw => (d.layout raw (d.operands args)).map fun layout =>
    layout.render m (d.operands args).value

end Segment

namespace Template

def uses (segments : List Segment) : Nat := (segments.map Segment.uses).sum

theorem uses_cons (s : Segment) (segments : List Segment) :
    uses (s :: segments) = s.uses + uses segments := by
  simp [uses]

theorem expandSegment_eq (m : Memory) (args : Arguments) (s : Segment) :
    expandSegment m args s = (s.text m args).map (·, args.skip s.uses) := by
  cases s with
  | literal text => rfl
  | percent => rfl
  | directive d raw =>
      have hrest : ((args.skip (d.widthUses + d.precisionUses)).pick d.position).2 =
          args.skip d.uses := by
        rw [Arguments.snd_pick, Arguments.skip_skip]
        rfl
      rw [expandSegment, d.resolve_eq, Segment.text]
      cases d.layout raw (d.operands args) with
      | error e => rfl
      | ok layout =>
          exact congrArg
            (fun rest => Except.ok (layout.render m (d.operands args).value, rest)) hrest

/-- Segments are expanded one after another, each with the arguments that those before it left. -/
theorem expand_cons (m : Memory) (args : Arguments) (s : Segment) (segments : List Segment) :
    expand m args (s :: segments) = s.text m args >>= fun text =>
      expand m (args.skip s.uses) segments >>= fun more => .ok (text ++ more) := by
  rw [expand, expandSegment_eq]
  cases s.text m args <;> rfl

end Template

end CellMachine
