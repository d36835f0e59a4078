import Mathlib.Data.Nat.Digits.Lemmas
import Mathlib.Data.Rat.Floor
import CellMachine.Proofs.Padding
/-!
# Numbers in a base

The conversions to binary, octal, hexadecimal and unsigned decimal write a value modulo `2 ^ 32`.
The first part of this module gives values their exact meaning: a double is a rational number and
an integer is itself, so the reduction is one of integers whatever the magnitude.  The second part
reads digits by their place in an alphabet.  Main statement: a mark and digits are written, and the
digits denote the residue however the layout pads them.
-/

namespace CellMachine

/-! ## Exact values -/

/-- The integer part of a rational number, toward zero. -/
def towardZero (q : ℚ) : ℤ := if q < 0 then ⌈q⌉ else ⌊q⌋

theorem towardZero_of_nonneg {q : ℚ} (h : 0 ≤ q) : towardZero q = ⌊q⌋ := by
  rw [towardZero, if_neg (not_lt.mpr h)]

theorem towardZero_neg {q : ℚ} (h : 0 ≤ q) : towardZero (-q) = -⌊q⌋ := by
  unfold towardZero
  split_ifs with hneg
  · exact Int.ceil_neg
  · have hzero : q = 0 := by linarith
    simp [hzero]

theorem towardZero_intCast (n : ℤ) : towardZero n = n := by
  unfold towardZero
  split_ifs <;> simp

namespace Double

/-- The number that a double is. -/
def toRat? : Double → Option ℚ
  | .finite negative units _ =>
    let magnitude : ℚ := units / unitsPerOne
    some (if negative then -magnitude else magnitude)
  | .nan | .infinite _ => none

theorem trunc?_eq_map_toRat? (x : Double) : x.trunc? = x.toRat?.map towardZero := by
  cases x with
  | nan | infinite negative => rfl
  | finite negative units representable =>
      have hnonneg : (0 : ℚ) ≤ units / unitsPerOne := by positivity
      have hfloor : ⌊(units / unitsPerOne : ℚ)⌋ = (units / unitsPerOne : ℕ) :=
        Rat.floor_natCast_div_natCast units unitsPerOne
      cases negative with
      | false =>
          simp only [trunc?, toRat?, Option.map_some, Bool.false_eq_true, if_false]
          rw [towardZero_of_nonneg hnonneg, hfloor]
      | true =>
          simp only [trunc?, toRat?, Option.map_some, if_true]
          rw [towardZero_neg hnonneg, hfloor]

end Double

namespace Value

/-- The number that a value stands for: an integer exactly, any other value as a double. -/
def toRat? : Value → Option ℚ
  | .int n => some n.toInt
  | v => v.toDouble.toRat?

theorem toNat_ofNat_emod (n : ℤ) : ((UInt32.ofNat (n % 2 ^ 32).toNat).toNat : ℤ) = n % 2 ^ 32 := by
  have hnonneg : 0 ≤ n % 2 ^ 32 := Int.emod_nonneg n (by decide)
  have hlt : n % 2 ^ 32 < 2 ^ 32 := Int.emod_lt_of_pos n (by decide)
  have hsmall : (n % 2 ^ 32).toNat < 2 ^ 32 := by omega
  rw [UInt32.toNat_ofNat_of_lt' hsmall, Int.toNat_of_nonneg hnonneg]

theorem toNat_toUInt32 (v : Value) :
    (v.toUInt32.toNat : ℤ) = v.toRat?.elim 0 fun q => towardZero q % 2 ^ 32 := by
  have hdouble (x : Double) :
      (x.toUInt32.toNat : ℤ) = x.toRat?.elim 0 fun q => towardZero q % 2 ^ 32 := by
    rw [Double.toUInt32, toNat_ofNat_emod, Double.trunc?_eq_map_toRat?]
    cases x.toRat? <;> rfl
  cases v with
  | int n =>
      rw [toUInt32, toNat_ofNat_emod, toRat?, Option.elim_some, towardZero_intCast]
  | float x => exact hdouble _
  | str text => exact hdouble _
  | block id => exact hdouble _
  | null => exact hdouble _
  | undefined => exact hdouble _

end Value

/-! ## Digits -/

/-- A base in which numbers are written without a sign. -/
inductive Radix where
  | binary
  | octal
  | hex (upper : Bool)
  | decimal

namespace Radix

def conversion : Radix → Conversion
  | .binary => .binary
  | .octal => .octal
  | .hex upper => .hex upper
  | .decimal => .unsigned

/-- The digits in ascending order. -/
def alphabet : Radix → Text
  | .binary => "01".toList
  | .octal => "01234567".toList
  | .hex upper => if upper then "0123456789ABCDEF".toList else "0123456789abcdef".toList
  | .decimal => "0123456789".toList

def base (radix : Radix) : Nat := radix.alphabet.length

/-- What stands in front of a number other than zero if the flags ask for it. -/
def mark : Radix → Text
  | .binary => "0b".toList
  | .octal => "0".toList
  | .hex upper => if upper then "0X".toList else "0x".toList
  | .decimal => []

/-- The number that a run of digits denotes. -/
def value (radix : Radix) (run : Text) : Nat :=
  Nat.ofDigits radix.base (run.reverse.map radix.alphabet.idxOf)

variable (radix : Radix)

theorem one_lt_base : 1 < radix.base := by
  cases radix with
  | hex upper => cases upper <;> decide
  | _ => decide

/-- Each digit is found in the alphabet at the place of its value. -/
theorem idxOf_digitChar {d : Nat} (h : d < radix.base) :
    radix.alphabet.idxOf (radix.conversion.recase d.digitChar) = d := by
  have hall : ∀ d < radix.base,
      radix.alphabet.idxOf (radix.conversion.recase d.digitChar) = d := by
    cases radix with
    | hex upper => cases upper <;> decide
    | _ => decide
  exact hall d h

theorem mem_alphabet {d : Nat} (h : d < radix.base) :
    radix.conversion.recase d.digitChar ∈ radix.alphabet := by
  rw [← List.idxOf_lt_length_iff, radix.idxOf_digitChar h]
  exact h

theorem recase_zero : radix.conversion.recase '0' = '0' := Conversion.recase_eq_self _ rfl

theorem zero_mem_alphabet : '0' ∈ radix.alphabet := by
  rw [← radix.recase_zero]
  exact radix.mem_alphabet (Nat.zero_lt_of_lt radix.one_lt_base)

theorem value_zeros_append (n : Nat) (run : Text) :
    radix.value (List.replicate n '0' ++ run) = radix.value run := by
  have hzero : radix.alphabet.idxOf '0' = 0 := by
    have hplace : radix.alphabet.idxOf (radix.conversion.recase '0') = 0 :=
      radix.idxOf_digitChar (Nat.zero_lt_of_lt radix.one_lt_base)
    rwa [recase_zero] at hplace
  rw [value, List.reverse_append, List.reverse_replicate, List.map_append, List.map_replicate,
    hzero, Nat.ofDigits_append_replicate_zero, value]

end Radix

namespace Numeral

theorem exists_digits {base : Nat} (h : 1 < base) (n : Nat) :
    ∃ places : List Nat, digits base n = places.map Nat.digitChar ∧ (∀ d ∈ places, d < base) ∧
      Nat.ofDigits base places.reverse = n := by
  -- The last digit is the remainder, and the digits of the quotient stand in front of it.
  induction n using Nat.strongRecOn with
  | ind n ih =>
      unfold digits at ih ⊢
      by_cases hlt : n < base
      · refine ⟨[n], ?_, ?_, ?_⟩
        · rw [Nat.toDigits_of_lt_base hlt, List.map_singleton]
        · simpa using hlt
        · simp
      · have hpos : 0 < n := by omega
        obtain ⟨places, hdigits, hplaces, hvalue⟩ := ih (n / base) (Nat.div_lt_self hpos h)
        refine ⟨places ++ [n % base], ?_, ?_, ?_⟩
        · rw [Nat.toDigits_of_base_le h (by omega), hdigits, List.map_append, List.map_singleton]
        · intro d hd
          rcases List.mem_append.mp hd with hfront | hlast
          · exact hplaces d hfront
          · rw [List.mem_singleton.mp hlast]
            exact Nat.mod_lt n (by omega)
        · calc
            Nat.ofDigits base (places ++ [n % base]).reverse
                = n % base + base * Nat.ofDigits base places.reverse := by
              simp [Nat.ofDigits_cons]
            _ = n := by rw [hvalue, Nat.mod_add_div]

theorem length_digits {base : Nat} (h : 1 < base) (n : Nat) :
    (digits base n).length = Nat.log base n + 1 := by
  apply Nat.le_antisymm
  · rw [digits, Nat.length_toDigits_le_iff h (Nat.succ_pos _)]
    exact Nat.lt_pow_succ_log_self h n
  · have hpos : 0 < (digits base n).length := Nat.length_toDigits_pos
    have hlt : n < base ^ (digits base n).length :=
      (Nat.length_toDigits_le_iff h hpos).mp (Nat.le_refl _)
    exact Nat.log_lt_of_lt_pow' (Nat.ne_of_gt hpos) hlt

end Numeral

namespace Radix

variable (radix : Radix)

theorem value_digits (n : Nat) :
    radix.value ((Numeral.digits radix.base n).map radix.conversion.recase) = n := by
  obtain ⟨places, hdigits, hplaces, hvalue⟩ := Numeral.exists_digits radix.one_lt_base n
  have hread : ((places.map Nat.digitChar).map radix.conversion.recase).map
      radix.alphabet.idxOf = places := by
    rw [List.map_map, List.map_map]
    calc
      places.map (radix.alphabet.idxOf ∘ radix.conversion.recase ∘ Nat.digitChar)
          = places.map id :=
        List.map_congr_left fun d hd => radix.idxOf_digitChar (hplaces d hd)
      _ = places := List.map_id places
  rw [hdigits, value, List.map_reverse, hread, hvalue]

theorem mem_alphabet_of_mem_digits (n : Nat) :
    ∀ c ∈ (Numeral.digits radix.base n).map radix.conversion.recase, c ∈ radix.alphabet := by
  intro c hc
  obtain ⟨places, hdigits, hplaces, -⟩ := Numeral.exists_digits radix.one_lt_base n
  rw [hdigits, List.map_map] at hc
  obtain ⟨d, hd, rfl⟩ := List.mem_map.mp hc
  exact radix.mem_alphabet (hplaces d hd)

end Radix

/-! ## Layouts -/

namespace Layout

variable {layout : Layout} {radix : Radix}

theorem mark_eq_of_radix (h : layout.conversion = radix.conversion) (v : Value) :
    layout.mark v = if layout.flags.alternate ∧ v.toUInt32 ≠ 0 then radix.mark else [] := by
  unfold mark
  rw [h]
  cases radix with
  | hex upper => cases upper <;> rfl
  | decimal => exact (ite_self _).symm
  | _ => rfl

theorem body_shown_of_radix (h : layout.conversion = radix.conversion) (m : Memory) (v : Value) :
    (layout.shown m v).body =
      List.replicate (layout.precision.getD 0 -
        (Numeral.digits radix.base v.toUInt32.toNat).length) '0' ++
      (Numeral.digits radix.base v.toUInt32.toNat).map radix.conversion.recase := by
  have hfield : (layout.field m v).body = Numeral.atLeast (layout.precision.getD 0)
      (Numeral.digits radix.base v.toUInt32.toNat) := by
    unfold field
    rw [h]
    cases radix with
    | hex upper => cases upper <;> rfl
    | _ => rfl
  unfold shown Field.map
  rw [hfield, h, Numeral.atLeast, List.map_append, List.map_replicate, Radix.recase_zero]

theorem length_body_shown_of_radix (h : layout.conversion = radix.conversion) (m : Memory)
    (v : Value) : (layout.shown m v).body.length =
      max (Nat.log radix.base v.toUInt32.toNat + 1) (layout.precision.getD 0) := by
  rw [body_shown_of_radix h, List.length_append, List.length_replicate, List.length_map,
    Numeral.length_digits radix.one_lt_base]
  omega

theorem zeroPads_of_radix (h : layout.conversion = radix.conversion) (v : Value) :
    layout.zeroPads v = layout.flags.zero := by
  have hwhole : layout.conversion.isFloating = false := by
    rw [h]
    cases radix <;> rfl
  rw [zeroPads, hwhole]
  simp

/-- In every layout a value is written in a base as a mark and digits, with spaces at one end.  The
digits denote the integer part of the value modulo `2 ^ 32`, or zero if the value is not finite.
The mark is there if it is asked for and the number is not zero.  There are as many digits as the
number needs, the precision asks for or, with zeros for padding, the width leaves room for. -/
theorem radix_denotes_residue (radix : Radix) (flags : Flags) (width : Nat)
    (precision : Option Nat) (m : Memory) (v : Value) :
    ∃ (before after number : Nat) (mark digits : Text),
      Layout.render ⟨flags, width, precision, radix.conversion⟩ m v =
        List.replicate before ' ' ++ (mark ++ digits) ++ List.replicate after ' ' ∧
      (if flags.left then before = 0 else after = 0) ∧
      mark = (if flags.alternate ∧ number ≠ 0 then radix.mark else []) ∧
      (∀ c ∈ digits, c ∈ radix.alphabet) ∧ radix.value digits = number ∧
      (number : ℤ) = (v.toRat?.elim 0 fun q => towardZero q % 2 ^ 32) ∧
      digits.length = max (max (Nat.log radix.base number + 1) (precision.getD 0))
        (if flags.zero ∧ ¬flags.left then width - mark.length else 0) := by
  -- Zeros come from the precision and from the width; the number is the same without them.
  let layout : Layout := ⟨flags, width, precision, radix.conversion⟩
  have hradix : layout.conversion = radix.conversion := rfl
  have hbody := body_shown_of_radix hradix m v
  have hlength : (layout.shown m v).body.length =
      max (Nat.log radix.base v.toUInt32.toNat + 1) (precision.getD 0) :=
    length_body_shown_of_radix hradix m v
  have htext : (layout.shown m v).text.length =
      (layout.shown m v).lead.length + (layout.shown m v).body.length := List.length_append
  have hrender := render_eq_justify layout m v
  rw [zeroPads_of_radix hradix, Field.justify_eq, htext] at hrender
  refine ⟨_, _, v.toUInt32.toNat, _, _, hrender, ?_, ?_, ?_, ?_, v.toNat_toUInt32, ?_⟩
  · show if flags.left then (if flags.left || flags.zero then 0 else _) = 0
      else (if flags.left then _ else 0) = 0
    cases flags.left <;> simp
  · have hzero : v.toUInt32 ≠ 0 ↔ v.toUInt32.toNat ≠ 0 := not_congr UInt32.toNat_inj.symm
    rw [lead_shown, mark_eq_of_radix hradix]
    simp only [hzero]
    rfl
  · rw [hbody]
    apply Numeral.forall_mem_zeros_append radix.zero_mem_alphabet
    exact Numeral.forall_mem_zeros_append radix.zero_mem_alphabet
      (radix.mem_alphabet_of_mem_digits _)
  · rw [hbody, Radix.value_zeros_append, Radix.value_zeros_append, Radix.value_digits]
  · rw [List.length_append, List.length_replicate, hlength]
    show (if !flags.left && flags.zero then width - _ else 0) + _ = _
    cases flags.left <;> cases flags.zero <;> simp
    omega

example : Layout.render ⟨{ alternate := true }, 14, some 10, .hex false⟩ {} (.int (-1)) =
    "  0x00ffffffff".toList := by decide +kernel

end Layout

end CellMachine
