import CellMachine.Proofs.GeneralNotation
import CellMachine.Proofs.Written
/-!
# Counting decimals in 32 bits

In its fixed form general notation counts its decimals by a subtraction in 32 bits.  The precision
may be as large as a 32-bit integer, and a negative exponent adds to it.  Main statement: the count
is exact up to `2 ^ 31 - 1`, and six pairs of a precision and an exponent ask for more.  For these,
arithmetic that is checked has no result; arithmetic that is not checked wraps around to a negative
count, and no decimals are shown.
-/

namespace CellMachine

namespace Double

/-! ## The count -/

/-- One more than fits wraps around to a negative number. -/
theorem toInt_decimals_of_overflow {count : ℕ} {exponent : ℤ} (h : count ≤ 2147483647)
    (hlow : -4 ≤ exponent) (hhigh : exponent ≤ 1024)
    (hover : 2147483647 < (count : ℤ) - 1 - exponent) :
    (Int32.ofNat count - 1 - Int32.ofInt exponent).toInt = count - 1 - exponent - 2 ^ 32 := by
  rw [toInt_decimals_eq_bmod h hlow hhigh, Int.bmod_def]
  omega

theorem toNatClampNeg_generalDecimals_of_overflow {count : ℕ} {exponent : ℤ}
    (h : count ≤ 2147483647) (hlow : -4 ≤ exponent) (hhigh : exponent ≤ 1024)
    (hover : 2147483647 < (count : ℤ) - 1 - exponent) :
    (generalDecimals count exponent).toNatClampNeg = 0 := by
  rw [generalDecimals, toNatClampNeg_max_zero, Int32.toNatClampNeg,
    toInt_decimals_of_overflow h hlow hhigh hover]
  omega

/-! ## The exponent -/

theorem snd_scientific_le {units : ℕ} (hrep : Representable units) (places : ℕ) :
    (scientific units places).2 ≤ 1024 := by
  rw [snd_scientific hrep]
  exact snd_significantDigits_le hrep places

theorem log_magnitude_le_snd_significantDigits {units : ℕ} (h : units ≠ 0) (places : ℕ) :
    Int.log 10 (magnitude units) ≤ (significantDigits units places).2 := by
  obtain ⟨rounded, -, -, ⟨-, hdigits⟩ | ⟨-, hdigits⟩⟩ := significantDigits_cases h places
  · rw [hdigits]
  · rw [hdigits]
    exact Int.le_add_one (le_refl _)

/-- A magnitude below a tenth is rounded to zero where no decimals are shown. -/
theorem fixed_zero_of_exponent_lt {units : ℕ} (hrep : Representable units) {places : ℕ}
    (h : (scientific units places).2 < -1) : fixed units 0 = ['0'] := by
  rw [snd_scientific hrep] at h
  have hunits : units ≠ 0 := by
    rintro rfl
    rw [significantDigits_zero] at h
    exact absurd h (by decide)
  have hlog : Int.log 10 (magnitude units) < -1 :=
    lt_of_le_of_lt (log_magnitude_le_snd_significantDigits hunits places) h
  have hsmall : magnitude units < (10 : ℚ) ^ (-1 : ℤ) := by
    exact_mod_cast (Int.lt_zpow_iff_log_lt (by decide) (magnitude_pos hunits)).mpr hlog
  have hnear : nearestEven (magnitude units) = 0 := by
    apply nearestEven_eq_of_abs_lt
    have hpos := magnitude_pos hunits
    rw [zpow_neg_one] at hsmall
    rw [Int.cast_zero, sub_zero, abs_of_pos hpos]
    linarith
  have hdigits : fixedDigits units 0 = 0 := by
    apply Int.ofNat_inj.mp
    rw [cast_fixedDigits, Nat.cast_zero, zpow_zero, mul_one, hnear]
  rw [fixed_eq_pointed, hdigits]
  rfl

/-! ## The fixed form -/

section FixedForm

variable {units precision : ℕ}

theorem general_of_fixed_form (hrep : Representable units) (hprecision : precision ≤ 2147483647)
    (hlow : -4 ≤ (scientific units (max precision 1 - 1)).2)
    (hlt : (scientific units (max precision 1 - 1)).2 < (max precision 1 : ℕ)) (alternate : Bool) :
    general units precision alternate =
      let text := fixed units
        (generalDecimals (max precision 1) (scientific units (max precision 1 - 1)).2).toNatClampNeg
      if alternate then text else Numeral.stripFraction text := by
  have hcount : max precision 1 ≤ 2147483647 := by omega
  have hhigh := snd_scientific_le hrep (max precision 1 - 1)
  have hform : ¬((scientific units (max precision 1 - 1)).2 < -4 ∨
      Int32.ofNat (max precision 1) ≤ Int32.ofInt (scientific units (max precision 1 - 1)).2) := by
    rw [ofNat_le_ofInt_iff hcount hlow hhigh]
    omega
  exact if_neg hform

theorem generalOverflows_iff (hrep : Representable units) (hprecision : precision ≤ 2147483647)
    (hlow : -4 ≤ (scientific units (max precision 1 - 1)).2) :
    generalOverflows units precision = true ↔
      2147483647 <
        ((max precision 1 : ℕ) : ℤ) - 1 - (scientific units (max precision 1 - 1)).2 := by
  have hcount : max precision 1 ≤ 2147483647 := by omega
  have hhigh := snd_scientific_le hrep (max precision 1 - 1)
  have hexponent : scientificExponent units (max precision 1 - 1) =
      (scientific units (max precision 1 - 1)).2 := rfl
  have hmax : Int32.maxValue.toInt = 2147483647 := rfl
  simp only [generalOverflows, hexponent, decide_eq_true_eq, Int32.lt_iff_toInt_lt,
    toInt_ofNat_count hcount, toInt_ofInt_exponent hlow hhigh, hmax]
  omega

end FixedForm

/-! ## Templates -/

/-- The layout of general notation with a precision. -/
def generalLayout (precision : ℕ) (alternate : Bool) : Layout where
  flags := { alternate := alternate }
  precision := some precision
  conversion := .general false

section Templates

variable {precision : ℕ} (alternate : Bool)

theorem inRange_generalLayout (h : precision ≤ 2147483647) :
    (generalLayout precision alternate).InRange := by
  refine ⟨Nat.zero_le _, ?_⟩
  rintro _ ⟨⟩
  exact h

theorem spelling_generalLayout :
    (generalLayout precision alternate).written.spelling =
      '%' :: ((if alternate then ['#'] else []) ++
        '.' :: (Numeral.digits 10 precision ++ ['g'])) := by
  cases alternate <;> simp [generalLayout, Layout.written, Directive.spelling, Flags.toText,
    Count.spelling, Conversion.letter]

theorem render_generalLayout {units : ℕ} (hrep : Representable units) (m : Memory) :
    (generalLayout precision alternate).render m (.float (.finite false units hrep)) =
      general units precision alternate := by
  have hfield : (generalLayout precision alternate).field m (.float (.finite false units hrep)) =
      { lead := [], body := general units precision alternate } := rfl
  unfold Layout.render
  rw [hfield]
  exact Field.justify_zero _ _ _

theorem overflows_generalLayout {units : ℕ} (hrep : Representable units) :
    (generalLayout precision alternate).overflows (.float (.finite false units hrep)) =
      generalOverflows units precision := rfl

end Templates

/-- Let general notation take the fixed form, with a precision that a template may ask for.  The
count of its decimals is `count - 1 - exponent`.  If that is a 32-bit number, the subtraction yields
it, and so many decimals are shown before zeros are stripped.  Otherwise the subtraction overflows:
checked, it leaves the template without a text, and unchecked it makes the text a single zero.  This
happens with the three largest precisions only, and if the exponent is small enough. -/
theorem general_counts_decimals (units precision : ℕ) (alternate : Bool) (m : Memory)
    (hrep : Representable units) (hprecision : precision ≤ 2147483647) :
    let v : Value := .float (.finite false units hrep)
    let template : Text :=
      '%' :: ((if alternate then ['#'] else []) ++ '.' :: (Numeral.digits 10 precision ++ ['g']))
    let output : Text := general units precision alternate
    let count : ℕ := max precision 1
    let exponent : ℤ := (scientific units (count - 1)).2
    let decimals : ℤ := count - 1 - exponent
    let computed : Int32 := Int32.ofNat count - 1 - Int32.ofInt exponent
    let unstripped : Text := fixed units decimals.toNat
    Template.format m template [v] = .ok output ∧
    (-4 ≤ exponent → exponent < count →
      (decimals ≤ 2147483647 →
        computed.toInt = decimals ∧
        Template.checkedFormat m template [v] = some (.ok output) ∧
        output = (if alternate then unstripped else Numeral.stripFraction unstripped) ∧
        ((Decimal.read unstripped).fraction.length : ℤ) = decimals) ∧
      (2147483647 < decimals →
        computed.toInt = decimals - 2 ^ 32 ∧
        Template.checkedFormat m template [v] = none ∧ output = ['0']) ∧
      (2147483647 < decimals ↔
        precision = 2147483645 ∧ exponent = -4 ∨ precision = 2147483646 ∧ exponent ≤ -3 ∨
          precision = 2147483647 ∧ exponent ≤ -2)) := by
  intro v template output count exponent decimals computed unstripped
  have hrange := inRange_generalLayout alternate hprecision
  have htemplate : (generalLayout precision alternate).written.spelling = template :=
    spelling_generalLayout alternate
  have hsettled : (generalLayout precision alternate).settled = generalLayout precision alternate :=
    rfl
  have hformat := hrange.format_written m v
  have hchecked := hrange.checkedFormat_written m v
  rw [htemplate, hsettled, render_generalLayout alternate hrep] at hformat hchecked
  rw [overflows_generalLayout alternate hrep] at hchecked
  refine ⟨hformat, ?_⟩
  intro hlow hlt
  have hcount : count ≤ 2147483647 := by omega
  have hhigh : exponent ≤ 1024 := snd_scientific_le hrep (count - 1)
  have hoverflows : generalOverflows units precision = true ↔ 2147483647 < decimals :=
    generalOverflows_iff hrep hprecision hlow
  have hgeneral : output = _ := general_of_fixed_form hrep hprecision hlow hlt alternate
  refine ⟨?_, ?_, ?_⟩
  · intro hfits
    have hdecimals : (generalDecimals count exponent).toNatClampNeg = decimals.toNat :=
      toNatClampNeg_generalDecimals hcount hlow hhigh hlt hfits
    refine ⟨toInt_decimals hcount hlow hhigh hlt hfits, ?_, ?_, ?_⟩
    · rw [hchecked, if_neg (by rw [hoverflows]; omega)]
    · rw [hgeneral, hdecimals]
    · rw [read_fixed, Decimal.length_fraction_ofScaled]
      omega
  · intro hover
    have hdecimals : (generalDecimals count exponent).toNatClampNeg = 0 :=
      toNatClampNeg_generalDecimals_of_overflow hcount hlow hhigh hover
    refine ⟨toInt_decimals_of_overflow hcount hlow hhigh hover, ?_, ?_⟩
    · rw [hchecked, if_pos (hoverflows.mpr hover)]
    · have hsmall : exponent < -1 := by omega
      rw [hgeneral, hdecimals, fixed_zero_of_exponent_lt hrep hsmall]
      cases alternate <;> rfl
  · omega

theorem representable_two_pow {shift : ℕ} (h : shift ≤ 2045) : Representable (2 ^ shift) :=
  ⟨1, shift, by decide, h, (Nat.one_mul _).symm⟩

/-- `2 ^ -13` is 0.0001220703125.  With the precision 2147483644 the count is just in range; with
the largest precision a zero is written, or nothing. -/
theorem general_counts_decimals_extremes :
    ∃ hrep : Representable (2 ^ (1061 : ℕ)),
      let v : Value := .float (.finite false _ hrep)
      2147483644 ≤ 2147483647 ∧ 2147483647 ≤ 2147483647 ∧
      general (2 ^ (1061 : ℕ)) 11 false = "0.0001220703125".toList ∧
      ((Decimal.read (general (2 ^ (1061 : ℕ)) 2147483644 true)).fraction.length : ℤ) = 2147483647 ∧
      general (2 ^ (1061 : ℕ)) 2147483647 false = ['0'] ∧
      Template.checkedFormat {} "%.2147483647g".toList [v] = none := by
  have hrep : Representable (2 ^ (1061 : ℕ)) := @representable_two_pow 1061 (by decide)
  have hlast : 2147483644 ≤ 2147483647 := by decide
  have hgreatest : 2147483647 ≤ 2147483647 := Nat.le_refl _
  have hexponent : (scientific (2 ^ (1061 : ℕ)) (max 2147483644 1 - 1)).2 = -4 := by decide +kernel
  have hexponent' : (scientific (2 ^ (1061 : ℕ)) (max 2147483647 1 - 1)).2 = -4 := by decide +kernel
  have htemplate : '%' :: ((if false = true then ['#'] else []) ++
      '.' :: (Numeral.digits 10 2147483647 ++ ['g'])) = "%.2147483647g".toList := by decide +kernel
  obtain ⟨-, hfits⟩ := general_counts_decimals _ 2147483644 true {} hrep hlast
  obtain ⟨-, hover⟩ := general_counts_decimals _ 2147483647 false {} hrep hgreatest
  rw [hexponent] at hfits
  rw [hexponent', htemplate] at hover
  obtain ⟨hexact, -, -⟩ := hfits (by decide) (by decide)
  obtain ⟨-, -, houtput, hlength⟩ := hexact (by decide)
  obtain ⟨-, hwrapped, -⟩ := hover (by decide) (by decide)
  obtain ⟨-, hnone, hzero⟩ := hwrapped (by decide)
  rw [if_pos rfl] at houtput
  rw [← houtput] at hlength
  exact ⟨hrep, hlast, hgreatest, by decide +kernel, hlength, hzero, hnone⟩

end Double

end CellMachine
