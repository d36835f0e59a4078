import CellMachine.Double.Basic
/-!
# Doubles as bits

The binary64 interchange format: one sign bit, eleven exponent bits and 52 fraction bits.  It is the
way to and from the machine's own floating-point arithmetic.
-/

namespace CellMachine.Double

/-- The double that 64 bits stand for; every NaN is the same. -/
def ofBits (bits : UInt64) : Double :=
  let negative := decide (2 ^ (63 : Nat) ≤ bits.toNat)
  let field := bits.toNat / 2 ^ (52 : Nat) % 2 ^ (11 : Nat)
  let fraction := bits.toNat % 2 ^ (52 : Nat)
  if hspecial : field = 2047 then
    if fraction = 0 then .infinite negative else .nan
  else if field = 0 then
    .finite negative fraction
      ⟨fraction, 0, by omega, by omega, by simp⟩
  else
    .finite negative ((2 ^ (52 : Nat) + fraction) * 2 ^ (field - 1))
      ⟨2 ^ (52 : Nat) + fraction, field - 1, by omega, by omega, rfl⟩

/-- The exponent and fraction bits of a finite magnitude. -/
def magnitudeBits (units : Nat) : Nat :=
  (units.log2 - 52) * 2 ^ (52 : Nat) + units / spacing units

/-- The bits of a double; NaN is the quiet one without payload. -/
def toBits : Double → UInt64
  | .nan => 0x7FF8000000000000
  | .infinite negative => if negative then 0xFFF0000000000000 else 0x7FF0000000000000
  | .finite negative units _ =>
    UInt64.ofNat ((if negative then 2 ^ (63 : Nat) else 0) + magnitudeBits units)

/-- The same number in floating-point hardware. -/
def toFloat (x : Double) : Float := Float.ofBits x.toBits

/-- The number that floating-point hardware holds. -/
def ofFloat (x : Float) : Double := ofBits x.toBits

end CellMachine.Double
