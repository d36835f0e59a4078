import CellMachine.Template.Arguments
import CellMachine.Template.Field
import CellMachine.Template.Parser
/-!
# Expanding templates

A template is expanded segment by segment.  A directive takes its width first, then its precision,
then its value; the first width or precision out of range ends the expansion.
-/

namespace CellMachine

/-- A directive whose width or precision cannot be used, by the text of the directive. -/
inductive FormatError where
  | nonFiniteWidth (directive : Text)
  | nonFinitePrecision (directive : Text)
  | widthOverflow (directive : Text)
  | precisionOverflow (directive : Text)
deriving DecidableEq

namespace FormatError

/-- The wording of an error. -/
def message : FormatError → String
  | .nonFiniteWidth d => "Width of '" ++ String.ofList d ++ "' must be finite"
  | .nonFinitePrecision d => "Precision of '" ++ String.ofList d ++ "' must be finite"
  | .widthOverflow d => "Width of '" ++ String.ofList d ++ "' exceeds 2147483647"
  | .precisionOverflow d => "Precision of '" ++ String.ofList d ++ "' exceeds 2147483647"

end FormatError

/-- The largest width or precision. -/
def countLimit : Nat := 2147483647

namespace Directive

/-- The width of a directive, and whether it is negative, which means padding on the right. -/
def resolveWidth (d : Directive) (raw : Text) (args : Arguments) :
    Except FormatError ((Nat × Bool) × Arguments) :=
  match d.width with
  | none => .ok ((0, false), args)
  | some source =>
    let found := args.count source
    match found.1.trunc? with
    | none => .error (.nonFiniteWidth raw)
    | some width =>
      if countLimit < width.natAbs then .error (.widthOverflow raw)
      else .ok ((width.natAbs, found.1.isNegative), found.2)

/-- The precision of a directive; a negative one stands for the conversion's own. -/
def resolvePrecision (d : Directive) (raw : Text) (args : Arguments) :
    Except FormatError (Option Nat × Arguments) :=
  match d.precision with
  | none => .ok (d.conversion.defaultPrecision, args)
  | some source =>
    let found := args.count source
    match found.1.trunc? with
    | none => .error (.nonFinitePrecision raw)
    | some precision =>
      if found.1.isNegative then .ok (d.conversion.defaultPrecision, found.2)
      else if countLimit < precision.natAbs then .error (.precisionOverflow raw)
      else .ok (some precision.natAbs, found.2)

/-- The layout of a directive, and the arguments behind those it took. -/
def resolve (d : Directive) (raw : Text) (args : Arguments) :
    Except FormatError (Layout × Arguments) := do
  let (width, args) ← d.resolveWidth raw args
  let (precision, args) ← d.resolvePrecision raw args
  return ({ flags := { d.flags with left := d.flags.left || width.2 }
            width := width.1
            precision := precision
            conversion := d.conversion }, args)

end Directive

namespace Template

/-- The text of one segment, and the arguments behind those it took. -/
def expandSegment (m : Memory) (args : Arguments) :
    Segment → Except FormatError (Text × Arguments)
  | .literal text => .ok (text, args)
  | .percent => .ok (['%'], args)
  | .directive d raw => do
    let (layout, args) ← d.resolve raw args
    let (v, args) := args.pick d.position
    return (layout.render m v, args)

/-- The text of segments. -/
def expand (m : Memory) : Arguments → List Segment → Except FormatError Text
  | _, [] => .ok []
  | args, segment :: rest => do
    let (text, args) ← expandSegment m args segment
    let more ← expand m args rest
    return text ++ more

/-- The text of a template with the given values. -/
def format (m : Memory) (template : Text) (values : List Value) : Except FormatError Text :=
  expand m { values := values } (parse template)

/-- Whether an expansion comes to a layout that overflows. -/
def overflows : Arguments → List Segment → Bool
  | _, [] => false
  | args, .directive d raw :: rest =>
    match d.resolve raw args with
    | .error _ => false
    | .ok (layout, args) =>
      let picked := args.pick d.position
      layout.overflows picked.1 || overflows picked.2 rest
  | args, _ :: rest => overflows args rest

/-- The text of a template where arithmetic is checked: no result if it overflows. -/
def checkedFormat (m : Memory) (template : Text) (values : List Value) :
    Option (Except FormatError Text) :=
  if overflows { values := values } (parse template) then none
  else some (format m template values)

end Template

end CellMachine
