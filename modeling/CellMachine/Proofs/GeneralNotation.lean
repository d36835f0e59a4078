import CellMachine.Proofs.ExactDigits
/-!
# General notation

General notation rounds a magnitude to its significant digits, and takes the form and the number of
decimals from the exponent of the result.  In its fixed form it then rounds the magnitude again, at
that many decimals; the digits are the same, also where a carry has raised the exponent.  Main
statement: in both forms the text denotes the magnitude rounded to the significant digits, as
exponential notation does.
-/

namespace CellMachine.Double

/-! ## 32-bit arithmetic -/

section Words

variable {count : ℕ} {exponent : ℤ}

theorem toInt_ofNat_count (h : count ≤ 2147483647) : (Int32.ofNat count).toInt = count :=
  Int32.toInt_ofNat_of_lt (by omega)

theorem toInt_ofInt_exponent (hlow : -4 ≤ exponent) (hhigh : exponent ≤ 1024) :
    (Int32.ofInt exponent).toInt = exponent :=
  Int32.toInt_ofInt_of_le (by omega) (by omega)

theorem ofNat_le_ofInt_iff (h : count ≤ 2147483647) (hlow : -4 ≤ exponent)
    (hhigh : exponent ≤ 1024) :
    Int32.ofNat count ≤ Int32.ofInt exponent ↔ (count : ℤ) ≤ exponent := by
  rw [Int32.le_iff_toInt_le, toInt_ofNat_count h, toInt_ofInt_exponent hlow hhigh]

/-- Only the second step of the subtraction may leave the 32-bit range. -/
theorem toInt_decimals_eq_bmod (h : count ≤ 2147483647) (hlow : -4 ≤ exponent)
    (hhigh : exponent ≤ 1024) :
    (Int32.ofNat count - 1 - Int32.ofInt exponent).toInt =
      ((count : ℤ) - 1 - exponent).bmod (2 ^ 32) := by
  have hone : (1 : Int32).toInt = 1 := rfl
  have hfirst : (Int32.ofNat count - 1).toInt = count - 1 := by
    rw [Int32.toInt_sub, toInt_ofNat_count h, hone]
    apply Int.bmod_eq_of_le <;> omega
  rw [Int32.toInt_sub, hfirst, toInt_ofInt_exponent hlow hhigh]

theorem toInt_decimals (h : count ≤ 2147483647) (hlow : -4 ≤ exponent) (hhigh : exponent ≤ 1024)
    (hlt : exponent < count) (hfits : (count : ℤ) - 1 - exponent ≤ 2147483647) :
    (Int32.ofNat count - 1 - Int32.ofInt exponent).toInt = count - 1 - exponent := by
  rw [toInt_decimals_eq_bmod h hlow hhigh]
  apply Int.bmod_eq_of_le <;> omega

theorem toNatClampNeg_max_zero (n : Int32) : (max n 0).toNatClampNeg = n.toNatClampNeg := by
  have hzero : (0 : Int32).toInt = 0 := rfl
  by_cases hle : n ≤ 0
  · have hneg : n.toInt ≤ 0 := Int32.le_iff_toInt_le.mp hle
    have hmax : max n 0 = 0 := if_pos hle
    rw [hmax, Int32.toNatClampNeg, Int32.toNatClampNeg, hzero]
    omega
  · have hmax : max n 0 = n := if_neg hle
    rw [hmax]

theorem toNatClampNeg_generalDecimals (h : count ≤ 2147483647) (hlow : -4 ≤ exponent)
    (hhigh : exponent ≤ 1024) (hlt : exponent < count)
    (hfits : (count : ℤ) - 1 - exponent ≤ 2147483647) :
    (generalDecimals count exponent).toNatClampNeg = (count - 1 - exponent).toNat := by
  rw [generalDecimals, toNatClampNeg_max_zero, Int32.toNatClampNeg,
    toInt_decimals h hlow hhigh hlt hfits]

end Words

/-! ## The two forms -/

/-- The digits of a magnitude rounded to `count` significant ones, in the form that its exponent
asks for. -/
def generalForm (units count : ℕ) : Decimal :=
  let digits := significantDigits units (count - 1)
  if digits.2 < -4 ∨ (count : ℤ) ≤ digits.2 then
    (Decimal.ofScaled digits.1 (count - 1)).withExponent digits.2
  else Decimal.ofScaled digits.1 (count - 1 - digits.2).toNat

theorem snd_significantDigits_le {units : ℕ} (h : Representable units) (places : ℕ) :
    (significantDigits units places).2 ≤ 1024 := by
  by_cases hzero : units = 0
  · rw [hzero, significantDigits_zero]
    decide
  · have hlog := log_magnitude_lt hzero h
    obtain ⟨rounded, -, -, ⟨-, hdigits⟩ | ⟨-, hdigits⟩⟩ := significantDigits_cases hzero places
    · rw [hdigits]
      exact hlog.le
    · rw [hdigits]
      exact hlog

/-- General notation writes its form, with the zeros at the end of the fraction or without them. -/
theorem general_eq_text {units precision : ℕ} (h : Representable units)
    (hprecision : precision ≤ 2147483644) (alternate : Bool) :
    general units precision alternate =
      ((generalForm units (max precision 1)).trimmedUnless alternate).text := by
  have hcount : max precision 1 ≤ 2147483644 := by omega
  have hpositive : 1 ≤ max precision 1 := Nat.le_max_right precision 1
  unfold general generalForm
  generalize max precision 1 = count at hcount hpositive ⊢
  have hhigh := snd_significantDigits_le h (count - 1)
  have hsame := @fixedDigits_eq_significantDigits units (count - 1)
  simp only [scientific_eq_pointed h, fixed_eq_pointed]
  generalize significantDigits units (count - 1) = digits at hhigh hsame ⊢
  have hwell := Decimal.wellFormed_ofScaled
  by_cases hform : digits.2 < -4 ∨ (count : ℤ) ≤ digits.2
  · have hword : digits.2 < -4 ∨ Int32.ofNat count ≤ Int32.ofInt digits.2 := by
      by_cases hlow : digits.2 < -4
      · exact .inl hlow
      · exact .inr ((ofNat_le_ofInt_iff (by omega) (by omega) hhigh).mpr (by omega))
    rw [if_pos hform, if_pos hword, ← Decimal.text_ofScaled]
    cases alternate with
    | true => exact (Decimal.text_withExponent rfl digits.2).symm
    | false =>
        simp only [Bool.false_eq_true, if_false]
        rw [Decimal.stripFraction_text (hwell _ _) rfl]
        exact (Decimal.text_withExponent rfl digits.2).symm
  · have hword : ¬(digits.2 < -4 ∨ Int32.ofNat count ≤ Int32.ofInt digits.2) := by
      rw [ofNat_le_ofInt_iff (by omega) (by omega) hhigh]
      exact hform
    have hdecimals := @toNatClampNeg_generalDecimals count digits.2 (by omega) (by omega) hhigh
      (by omega) (by omega)
    rw [if_neg hform, if_neg hword, hdecimals, hsame (by omega), ← Decimal.text_ofScaled]
    cases alternate with
    | true => rfl
    | false => exact Decimal.stripFraction_text (hwell _ _) rfl

/-! ## What the form denotes -/

theorem wellFormed_generalForm (units count : ℕ) : (generalForm units count).WellFormed := by
  have hwell := Decimal.wellFormed_ofScaled
  unfold generalForm
  dsimp only
  split
  · exact (hwell _ _).withExponent _
  · exact hwell _ _

theorem value_generalForm (units count : ℕ) :
    Numeral.value ((generalForm units count).whole ++ (generalForm units count).fraction) =
      (significantDigits units (count - 1)).1 := by
  unfold generalForm
  dsimp only
  split
  · exact Decimal.value_ofScaled _ _
  · exact Decimal.value_ofScaled _ _

theorem exponent_generalForm {count : ℕ} (h : 0 < count) (units : ℕ) :
    (generalForm units count).exponent =
      if Int.log 10 (roundSignificant count (magnitude units)) < -4 ∨
          (count : ℤ) ≤ Int.log 10 (roundSignificant count (magnitude units)) then
        some (Int.log 10 (roundSignificant count (magnitude units)))
      else none := by
  have hlog := snd_significantDigits_eq_log units (count - 1)
  rw [Nat.sub_add_cancel h] at hlog
  rw [← hlog]
  unfold generalForm
  dsimp only
  split <;> rfl

theorem number_generalForm {count : ℕ} (h : 0 < count) (units : ℕ) :
    (generalForm units count).number = roundSignificant count (magnitude units) := by
  have hrounded := significantDigits_eq_rounded units (count - 1)
  rw [Nat.sub_add_cancel h] at hrounded
  rw [← hrounded]
  unfold generalForm
  dsimp only
  split
  · exact Decimal.number_ofScaled_withExponent _ _ _
  · rw [Decimal.number_ofScaled]
    congr 2
    omega

/-- The exponential form has one digit before the point. -/
theorem length_whole_generalForm {units count : ℕ}
    (hexponent : (generalForm units count).exponent ≠ none) :
    (generalForm units count).whole.length = 1 := by
  unfold generalForm at hexponent ⊢
  dsimp only at hexponent ⊢
  split
  · exact length_whole_mantissa units (count - 1)
  · next hfixed =>
      rw [if_neg hfixed] at hexponent
      exact absurd rfl hexponent

theorem length_significant_generalForm {units count : ℕ} (hunits : units ≠ 0) (h : 0 < count) :
    (generalForm units count).significant.length = count := by
  have hwell := wellFormed_generalForm units count
  have hdigits : ∀ c ∈ (generalForm units count).whole ++ (generalForm units count).fraction,
      c.isDigit := by
    intro c hc
    rcases List.mem_append.mp hc with hc | hc
    · exact hwell.whole_digits c hc
    · exact hwell.fraction_digits c hc
  have hlow := le_fst_significantDigits hunits (count - 1)
  have hhigh := fst_significantDigits_lt units (count - 1)
  rw [← value_generalForm] at hlow hhigh
  have hlength := Numeral.length_dropWhile_zeros hdigits hlow hhigh
  rw [Decimal.significant, hlength, Nat.sub_add_cancel h]

theorem read_exponential {units : ℕ} (h : Representable units) (places : ℕ) :
    Decimal.read (exponential units places) =
      (Decimal.ofScaled (significantDigits units places).1 places).withExponent
        (significantDigits units places).2 := by
  have hwell := Decimal.wellFormed_ofScaled (significantDigits units places).1 places
  rw [exponential, scientific_eq_pointed h, ← Decimal.text_ofScaled]
  rw [← Decimal.text_withExponent rfl, Decimal.read_text (hwell.withExponent _)]

theorem number_read_exponential {units : ℕ} (h : Representable units) (places : ℕ) :
    (Decimal.read (exponential units places)).number =
      roundSignificant (places + 1) (magnitude units) := by
  rw [read_exponential h, Decimal.number_ofScaled_withExponent, significantDigits_eq_rounded]

theorem read_general {units precision : ℕ} (h : Representable units)
    (hprecision : precision ≤ 2147483644) (alternate : Bool) :
    Decimal.read (general units precision alternate) =
      (generalForm units (max precision 1)).trimmedUnless alternate := by
  rw [general_eq_text h hprecision]
  exact Decimal.read_text ((wellFormed_generalForm _ _).trimmedUnless alternate)

/-- With `count` significant digits, the text is a decimal of the magnitude rounded to them, which
is also what exponential notation denotes.  It has an exponent exactly if that of the rounded
magnitude is below -4 or not below `count`.  Without the alternate form no point stands at the end
and no zero at the end of a fraction, and the digits before the point are all kept; with it, `count`
significant digits are shown. -/
theorem general_denotes_rounded (units precision : ℕ) (alternate : Bool)
    (hrep : Representable units) (hprecision : precision ≤ 2147483644) :
    let count : ℕ := max precision 1
    let rounded : ℚ := roundSignificant count (magnitude units)
    let exponent : ℤ := Int.log 10 rounded
    let output : Text := general units precision alternate
    let shown : Decimal := Decimal.read output
    (shown.WellFormed ∧ shown.text = output) ∧
      shown.exponent =
        (if exponent < -4 ∨ (count : ℤ) ≤ exponent then some exponent else none) ∧
      (shown.exponent ≠ none → shown.whole.length = 1) ∧
      shown.number = rounded ∧
      (Decimal.read (exponential units (count - 1))).number = rounded ∧
      (alternate = false →
        ('.' ∈ output → shown.fraction ≠ []) ∧ shown.fraction.getLast? ≠ some '0') ∧
      shown.whole = (Decimal.read (general units precision true)).whole ∧
      (alternate = true → units ≠ 0 → shown.significant.length = count) := by
  intro count rounded exponent output shown
  have hcount : 0 < count := Nat.lt_of_lt_of_le Nat.zero_lt_one (Nat.le_max_right precision 1)
  have hread : shown = (generalForm units count).trimmedUnless alternate :=
    read_general hrep hprecision alternate
  have hplain : Decimal.read (general units precision true) = generalForm units count :=
    read_general hrep hprecision true
  have hwell : shown.WellFormed := by
    rw [hread]
    exact (wellFormed_generalForm units count).trimmedUnless alternate
  have htext : shown.text = output := by
    rw [hread]
    exact (general_eq_text hrep hprecision alternate).symm
  have hexponential := number_read_exponential hrep (count - 1)
  rw [Nat.sub_add_cancel hcount] at hexponential
  refine ⟨⟨hwell, htext⟩, ?_, ?_, ?_, hexponential, ?_, ?_, ?_⟩
  · rw [hread, Decimal.exponent_trimmedUnless, exponent_generalForm hcount]
  · intro hsome
    rw [hread, Decimal.exponent_trimmedUnless] at hsome
    rw [hread, Decimal.whole_trimmedUnless]
    exact length_whole_generalForm hsome
  · rw [hread, Decimal.number_trimmedUnless, number_generalForm hcount]
  · rintro rfl
    refine ⟨?_, ?_⟩
    · rw [← htext]
      exact (Decimal.point_mem_text_iff hwell).mp
    · rw [hread]
      exact Decimal.getLast?_trimmed_ne _
  · rw [hread, Decimal.whole_trimmedUnless, hplain]
  · rintro rfl hunits
    rw [hread]
    exact length_significant_generalForm hunits hcount

/-- To two digits 9.96875 is 10: the carry leaves the fixed form no decimals, and the zero is one of
its whole digits. -/
theorem general_denotes_rounded_carry :
    Representable (319 * 2 ^ (1069 : ℕ)) ∧ 2 ≤ 2147483644 ∧
      general (319 * 2 ^ (1069 : ℕ)) 2 false = ['1', '0'] ∧
      (Decimal.read (general (319 * 2 ^ (1069 : ℕ)) 2 false)).number =
        roundSignificant (max 2 1) (magnitude (319 * 2 ^ (1069 : ℕ))) := by
  have hrep : Representable (319 * 2 ^ (1069 : ℕ)) := ⟨319, 1069, by decide, by decide, rfl⟩
  have hprecision : 2 ≤ 2147483644 := by decide
  exact ⟨hrep, hprecision, by decide +kernel,
    (general_denotes_rounded _ 2 false hrep hprecision).2.2.2.1⟩

end CellMachine.Double
