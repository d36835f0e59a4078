import CellMachine.Double.Notation
import CellMachine.Memory.Basic
import CellMachine.Template.Directive
/-!
# Fields

A value is converted to a field, and the field is padded to its width.  A field keeps its sign or
base mark apart from the rest, since zeros go between the two.
-/

namespace CellMachine

/-- A directive whose width and precision are known. -/
structure Layout where
  flags : Flags := {}
  width : Nat := 0
  precision : Option Nat := none
  conversion : Conversion
deriving DecidableEq

/-- A converted value before it is padded. -/
structure Field where
  /-- The sign or base mark that zeros are put behind. -/
  lead : Text := []
  body : Text
  /-- Whether zeros may pad the field. -/
  takesZeros : Bool := true
deriving DecidableEq

namespace Field

/-- The field without padding. -/
def text (f : Field) : Text := f.lead ++ f.body

/-- The first `leadBytes` bytes of a text as the lead, the rest as the body. -/
def ofBytes (text : Text) (leadBytes : Nat) : Field :=
  { lead := (Text.splitBytes leadBytes text).1, body := (Text.splitBytes leadBytes text).2 }

/-- Pads a field to a width: with spaces behind it, with zeros behind its lead, or with spaces
before it. -/
def justify (f : Field) (left zeros : Bool) (width : Nat) : Text :=
  let missing := width - f.text.length
  if missing = 0 then f.text
  else if left then f.text ++ List.replicate missing ' '
  else if zeros then f.lead ++ List.replicate missing '0' ++ f.body
  else List.replicate missing ' ' ++ f.text

/-- A text, cut to a precision. -/
def ofText (precision : Option Nat) (text : Text) : Field :=
  { body := match precision with
      | some most => text.take most
      | none => text }

/-- A number in a base, with at least as many digits as the precision asks for; the mark of the
base stands in front of a number other than zero if the flags ask for it. -/
def ofRadix (layout : Layout) (base : Nat) (mark : Text) (n : UInt32) : Field :=
  { lead := if layout.flags.alternate ∧ n ≠ 0 then mark else []
    body := Numeral.atLeast (layout.precision.getD 0) (Numeral.digits base n.toNat) }

/-- The sign of a number under the flags. -/
def sign (flags : Flags) (negative : Bool) : Text := if negative then ['-'] else flags.positiveSign

/-- An integer in decimal. -/
def ofInteger (layout : Layout) (n : Int) : Field :=
  { lead := sign layout.flags (n < 0)
    body := Numeral.atLeast (layout.precision.getD 0) (Numeral.digits 10 n.natAbs) }

/-- A magnitude in the notation of the conversion. -/
def magnitude (layout : Layout) (units : Nat) : Text :=
  let precision := layout.precision.getD 6
  match layout.conversion with
  | .exponent _ => Double.exponential units precision
  | .general _ => Double.general units precision layout.flags.alternate
  | _ => Double.fixed units precision

/-- A double; zeros do not pad one that is not finite. -/
def ofDouble (layout : Layout) (x : Double) : Field :=
  let lead := sign layout.flags x.isNegative
  match x with
  | .nan => { lead := lead, body := "nan".toList, takesZeros := false }
  | .infinite _ => { lead := lead, body := "inf".toList, takesZeros := false }
  | .finite _ units _ => { lead := lead, body := magnitude layout units }

end Field

namespace Value

/-- The character that a value converts to. -/
def toChar (v : Value) : Char :=
  if v.toDouble.isFinite then Text.ofCode v.toDouble.toInt64 else Text.replacement

/-- The integer that a value converts to in decimal; no bound applies. -/
def toInteger : Value → Int
  | .int n => n.toInt
  | v => v.toDouble.trunc?.getD 0

end Value

namespace Layout

/-- The field of a value. -/
def field (layout : Layout) (m : Memory) (v : Value) : Field :=
  match layout.conversion with
  | .str => .ofText layout.precision (m.display v)
  | .char => .ofText layout.precision [v.toChar]
  | .binary => .ofRadix layout 2 ['0', 'b'] v.toUInt32
  | .octal => .ofRadix layout 8 ['0'] v.toUInt32
  | .hex _ => .ofRadix layout 16 ['0', 'x'] v.toUInt32
  | .unsigned => .ofRadix layout 10 [] v.toUInt32
  | .decimal => .ofInteger layout v.toInteger
  | .exponent _ | .fixed _ | .general _ => .ofDouble layout v.toDouble

/-- The text of a value. -/
def render (layout : Layout) (m : Memory) (v : Value) : Text :=
  let f := layout.field m v
  let text := f.justify layout.flags.left (layout.flags.zero && f.takesZeros) layout.width
  if layout.conversion.isUpper then text.upper else text

/-- Whether the text of a value takes a count that is beyond 32 bits. -/
def overflows (layout : Layout) (v : Value) : Bool :=
  match layout.conversion, v.toDouble with
  | .general _, .finite _ units _ => Double.generalOverflows units (layout.precision.getD 6)
  | _, _ => false

end Layout

end CellMachine
