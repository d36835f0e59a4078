import CellMachine.Double.Reading
import CellMachine.Text.Code
/-!
# Values

A value is what an argument, a result register or a memory cell holds.  Its coercions are loose:
texts are read as numbers, null counts as zero, and what has no numeric meaning is NaN.
-/

namespace CellMachine

/-- Identifies a block of memory. -/
abbrev BlockId := Nat

/-- A register or a memory cell.  A pointer takes two of them, an offset and a block, or null in
place of the block. -/
inductive Value where
  | int (n : Int64)
  | float (x : Double)
  | str (text : Text)
  | block (id : BlockId)
  | null
  | undefined
deriving DecidableEq

namespace Value

instance : Inhabited Value := ⟨.undefined⟩

/-- Whether the value was ever written. -/
def isDefined : Value → Bool
  | .undefined => false
  | _ => true

/-- Whether the value is the second half of a null pointer. -/
def isNull : Value → Bool
  | .null => true
  | _ => false

/-- The block that the value refers to. -/
def block? : Value → Option BlockId
  | .block id => some id
  | _ => none

/-- Whether the value can only be the second half of a pointer. -/
def isPointerTail : Value → Bool
  | .null | .undefined | .block _ => true
  | _ => false

/-- A text as a number: blanks around it do not count and nothing is zero. -/
def textNumber (text : Text) : Double :=
  if text.trim = [] then .zero else (Double.read? text.trim).getD .nan

/-- The numeric value. -/
def toDouble : Value → Double
  | .int n => .ofInt n.toInt
  | .float x => x
  | .str text => textNumber text
  | .null => .zero
  | .block _ | .undefined => .nan

/-- The integer value, truncated toward zero and kept within 64 bits. -/
def toInt64 : Value → Int64
  | .int n => n
  | v => v.toDouble.toInt64

/-- The integer value modulo `2 ^ 32`. -/
def toUInt32 : Value → UInt32
  | .int n => UInt32.ofNat (n.toInt % 2 ^ (32 : Nat)).toNat
  | v => v.toDouble.toUInt32

/-- Equality of values as numbers, texts and references: NaN differs from itself, the two zeros are
equal, and values of different kinds differ. -/
def equals : Value → Value → Bool
  | .int a, .int b => a == b
  | .float a, .float b => a.equals b
  | .str a, .str b => a == b
  | .block a, .block b => a == b
  | .null, .null => true
  | .undefined, .undefined => true
  | _, _ => false

end Value

end CellMachine
