import CellMachine.Double.Notation
import CellMachine.Proofs.Run
import Mathlib.Algebra.Order.Field.Rat
import Mathlib.Data.List.DropRight
import Mathlib.Tactic.FieldSimp
import Mathlib.Tactic.Linarith
/-!
# Decimal notation

What a text in fixed or exponential notation denotes.  A `Decimal` has the digits before and behind
its point and the exponent that is written, if any; it has a text and a number, and it can be read
from its text.  Trailing zeros of the fraction change the text and not the number, and the digits
that a magnitude is written with are those of its scaled value.
-/

namespace CellMachine

namespace Numeral

/-! ## Runs of digits -/

theorem value_append (run rest : Text) :
    value (run ++ rest) = 10 ^ rest.length * value run + value rest := by
  simp only [value_eq_ofDigitChars]
  rw [Nat.ofDigitChars_append, Nat.ofDigitChars_eq_ofDigitChars_zero]

theorem value_cons (c : Char) (rest : Text) :
    value (c :: rest) = 10 ^ rest.length * digitValue c + value rest := by
  have hdigit : value [c] = digitValue c := by simp [value]
  rw [← hdigit, ← value_append, List.singleton_append]

theorem value_append_zeros (run : Text) (n : ℕ) :
    value (run ++ List.replicate n '0') = 10 ^ n * value run := by
  have hzeros := value_zeros_append n []
  rw [List.append_nil] at hzeros
  rw [value_append, List.length_replicate, hzeros]
  rfl

theorem isDigit_of_mem_atLeast {count n : ℕ} {c : Char}
    (h : c ∈ atLeast count (digits 10 n)) : c.isDigit := by
  rcases List.mem_append.mp h with h | h
  · rw [List.eq_of_mem_replicate h]
    rfl
  · exact isDigit_of_mem_digits h

theorem digitValue_lt {c : Char} (h : c.isDigit) : digitValue c < 10 := by
  simp only [Char.isDigit, Bool.and_eq_true, decide_eq_true_eq] at h
  have hupper : c.toNat ≤ 57 := h.2
  have hzero : '0'.toNat = 48 := rfl
  unfold digitValue
  omega

theorem eq_of_digitValue_eq {c d : Char} (hc : c.isDigit) (hd : d.isDigit)
    (h : digitValue c = digitValue d) : c = d := by
  simp only [Char.isDigit, Bool.and_eq_true, decide_eq_true_eq] at hc hd
  have hc' : 48 ≤ c.toNat := hc.1
  have hd' : 48 ≤ d.toNat := hd.1
  have hzero : '0'.toNat = 48 := rfl
  unfold digitValue at h
  exact Char.toNat_inj.mp (by omega)

theorem digitValue_pos {c : Char} (hc : c.isDigit) (hne : c ≠ '0') : 0 < digitValue c := by
  have hzero : digitValue c ≠ digitValue '0' := fun heq => hne (eq_of_digitValue_eq hc rfl heq)
  exact Nat.pos_of_ne_zero hzero

theorem value_lt_pow {run : Text} (h : ∀ c ∈ run, c.isDigit) : value run < 10 ^ run.length := by
  induction run with
  | nil => decide
  | cons c rest ih =>
      have hrest := ih fun d hd => h d (List.mem_cons_of_mem c hd)
      have hdigit := digitValue_lt (h c List.mem_cons_self)
      rw [value_cons, List.length_cons, Nat.pow_succ]
      calc 10 ^ rest.length * digitValue c + value rest
          < 10 ^ rest.length * digitValue c + 10 ^ rest.length := Nat.add_lt_add_left hrest _
        _ = 10 ^ rest.length * (digitValue c + 1) := (Nat.mul_succ _ _).symm
        _ ≤ 10 ^ rest.length * 10 := Nat.mul_le_mul_left _ hdigit

theorem pow_le_value_cons {c : Char} {rest : Text} (hc : c.isDigit) (hne : c ≠ '0') :
    10 ^ rest.length ≤ value (c :: rest) := by
  rw [value_cons]
  exact Nat.le_add_right_of_le (Nat.le_mul_of_pos_right _ (digitValue_pos hc hne))

/-- Digits of one length are told apart by their value. -/
theorem eq_of_value_eq {run other : Text} (hrun : ∀ c ∈ run, c.isDigit)
    (hother : ∀ c ∈ other, c.isDigit) (hlength : run.length = other.length)
    (hvalue : value run = value other) : run = other := by
  induction run generalizing other with
  | nil => exact (List.length_eq_zero_iff.mp hlength.symm).symm
  | cons c rest ih =>
      cases other with
      | nil => cases hlength
      | cons d more =>
          have hrest : ∀ c ∈ rest, c.isDigit := fun e he => hrun e (List.mem_cons_of_mem c he)
          have hmore : ∀ c ∈ more, c.isDigit := fun e he => hother e (List.mem_cons_of_mem d he)
          have hsame : rest.length = more.length := Nat.succ.inj hlength
          have hpos : 0 < 10 ^ more.length := Nat.pow_pos (by decide)
          rw [value_cons, value_cons, hsame] at hvalue
          have hbelow := value_lt_pow hrest
          rw [hsame] at hbelow
          have hfirst : digitValue c = digitValue d := by
            have hquotient := congrArg (· / 10 ^ more.length) hvalue
            simp only [Nat.mul_add_div hpos, Nat.div_eq_of_lt hbelow,
              Nat.div_eq_of_lt (value_lt_pow hmore), Nat.add_zero] at hquotient
            exact hquotient
          rw [eq_of_digitValue_eq (hrun c List.mem_cons_self) (hother d List.mem_cons_self) hfirst]
          rw [hfirst] at hvalue
          rw [ih hrest hmore hsame (Nat.add_left_cancel hvalue)]

theorem value_dropWhile_zeros (run : Text) : value (run.dropWhile (· == '0')) = value run := by
  induction run with
  | nil => rfl
  | cons c rest ih =>
      rw [List.dropWhile_cons]
      split
      · next hzero =>
          rw [ih, value_cons, beq_iff_eq.mp hzero]
          exact (Nat.zero_add _).symm
      · rfl

/-- Behind its leading zeros a run has as many digits as its number. -/
theorem length_dropWhile_zeros {run : Text} {n : ℕ} (h : ∀ c ∈ run, c.isDigit)
    (hlow : 10 ^ n ≤ value run) (hhigh : value run < 10 ^ (n + 1)) :
    (run.dropWhile (· == '0')).length = n + 1 := by
  have hdigits : ∀ c ∈ run.dropWhile (· == '0'), c.isDigit :=
    fun c hc => h c ((List.dropWhile_sublist _).mem hc)
  have hstops := Text.stops_dropWhile (· == '0') run
  rw [← value_dropWhile_zeros run] at hlow hhigh
  cases hrun : run.dropWhile (· == '0') with
  | nil =>
      rw [hrun] at hlow
      exact absurd hlow (Nat.not_le.mpr (Nat.pow_pos (by decide)))
  | cons c rest =>
      rw [hrun] at hdigits hstops hlow hhigh
      have hne : c ≠ '0' := by simpa using hstops
      have hupper := Nat.lt_of_le_of_lt hlow (value_lt_pow hdigits)
      have hlower := Nat.lt_of_le_of_lt
        (@pow_le_value_cons c rest (hdigits c List.mem_cons_self) hne) hhigh
      have hle := (Nat.pow_lt_pow_iff_right (by decide : 1 < 10)).mp hupper
      have hge := (Nat.pow_lt_pow_iff_right (by decide : 1 < 10)).mp hlower
      rw [List.length_cons] at hle ⊢
      omega

/-- Only zeros of the fraction are stripped, and the point with the last of them. -/
theorem stripFraction_zeros {whole fraction : Text} (hwhole : ∀ c ∈ whole, c ≠ '.')
    (hfraction : ∀ c ∈ fraction, c ≠ '.') (hlast : fraction.getLast? ≠ some '0') (n : ℕ) :
    stripFraction (whole ++ '.' :: (fraction ++ List.replicate n '0')) =
      whole ++ if fraction = [] then [] else '.' :: fraction := by
  have hcontains :
      (whole ++ '.' :: (fraction ++ List.replicate n '0')).contains '.' = true := by simp
  have hreverse : (whole ++ '.' :: (fraction ++ List.replicate n '0')).reverse =
      List.replicate n '0' ++ (fraction.reverse ++ '.' :: whole.reverse) := by simp
  have hzeros : ∀ c ∈ List.replicate n '0', (c == '0') = true :=
    fun c hc => beq_iff_eq.mpr (List.eq_of_mem_replicate hc)
  rw [stripFraction, if_pos hcontains, hreverse]
  -- What stands at the end of the fraction decides whether the point is reached.
  cases fraction using List.reverseRecOn with
  | nil =>
      have hstops : Text.Stops (· == '.') whole.reverse := by
        intro c hc
        simpa using hwhole c (List.mem_reverse.mp (List.mem_of_mem_head? hc))
      rw [Text.dropWhile_run_append hzeros (by simp)]
      simp [Text.dropWhile_eq_self hstops]
  | append_singleton front c =>
      have hzero : c ≠ '0' := by simpa using hlast
      have hpoint : c ≠ '.' := hfraction c (by simp)
      rw [Text.dropWhile_run_append hzeros (by simpa using hzero)]
      simp [hpoint]

end Numeral

/-- A number in decimal notation: the digits before and behind the point, and the power of ten that
they are multiplied by, if one is written. -/
@[ext] structure Decimal where
  whole : Text
  fraction : Text
  exponent : Option ℤ
deriving DecidableEq

namespace Decimal

/-- The digits stand around a point, which is left out if none follow it, and the exponent stands
behind its mark. -/
def text (d : Decimal) : Text :=
  d.whole ++ (if d.fraction = [] then [] else '.' :: d.fraction) ++
    d.exponent.elim [] fun exponent => 'e' :: Double.exponentText exponent

/-- The number that the notation denotes. -/
def number (d : Decimal) : ℚ :=
  Numeral.value (d.whole ++ d.fraction) * 10 ^ (d.exponent.getD 0 - d.fraction.length)

/-- The digits from the first that is not zero on. -/
def significant (d : Decimal) : Text := (d.whole ++ d.fraction).dropWhile (· == '0')

structure WellFormed (d : Decimal) : Prop where
  whole_ne_nil : d.whole ≠ []
  whole_digits : ∀ c ∈ d.whole, c.isDigit
  fraction_digits : ∀ c ∈ d.fraction, c.isDigit

/-! ## Reading -/

/-- An integer with an optional sign. -/
def signedValue : Text → ℤ
  | '-' :: run => -Numeral.value run
  | '+' :: run => Numeral.value run
  | run => Numeral.value run

/-- The decimal that a text writes: its exponent stands behind the mark, its fraction behind the
point. -/
def read (text : Text) : Decimal :=
  let mantissa := text.takeWhile (· != 'e')
  let suffix := text.dropWhile (· != 'e')
  { whole := mantissa.takeWhile (· != '.')
    fraction := (mantissa.dropWhile (· != '.')).tail
    exponent := if suffix = [] then none else some (signedValue suffix.tail) }

theorem signedValue_exponentText (exponent : ℤ) :
    signedValue (Double.exponentText exponent) = exponent := by
  have hvalue : Numeral.value (Numeral.atLeast 2 (Numeral.digits 10 exponent.natAbs)) =
      exponent.natAbs := by
    rw [Numeral.atLeast, Numeral.value_zeros_append, Numeral.value_digits]
  unfold Double.exponentText
  split
  · rw [signedValue, hvalue]
    omega
  · rw [signedValue, hvalue]
    omega

theorem bne_of_isDigit {c mark : Char} (h : c.isDigit) (hmark : mark.isDigit = false) :
    (c != mark) = true := by
  rw [bne_iff_ne]
  rintro rfl
  rw [h] at hmark
  cases hmark

theorem read_text {d : Decimal} (h : d.WellFormed) : read d.text = d := by
  have hwhole : ∀ c ∈ d.whole, (c != '.') = true :=
    fun c hc => bne_of_isDigit (h.whole_digits c hc) rfl
  have hmantissa : ∀ c ∈ d.whole ++ (if d.fraction = [] then [] else '.' :: d.fraction),
      (c != 'e') = true := by
    intro c hc
    rcases List.mem_append.mp hc with hc | hc
    · exact bne_of_isDigit (h.whole_digits c hc) rfl
    · split at hc
      · cases hc
      · rcases List.mem_cons.mp hc with rfl | hc
        · rfl
        · exact bne_of_isDigit (h.fraction_digits c hc) rfl
  have hsuffix : Text.Stops (· != 'e')
      (d.exponent.elim [] fun exponent => 'e' :: Double.exponentText exponent) := by
    cases d.exponent <;> simp [Text.Stops]
  have hpoint : Text.Stops (· != '.') (if d.fraction = [] then [] else '.' :: d.fraction) := by
    split <;> simp [Text.Stops]
  unfold read text
  simp only [Text.takeWhile_run_append hmantissa hsuffix,
    Text.dropWhile_run_append hmantissa hsuffix, Text.takeWhile_run_append hwhole hpoint,
    Text.dropWhile_run_append hwhole hpoint]
  ext1
  · rfl
  · by_cases hfraction : d.fraction = []
    · simp [hfraction]
    · simp [hfraction]
  · cases hexponent : d.exponent with
    | none => rfl
    | some exponent => simp [signedValue_exponentText]

/-- A point is written only in front of digits. -/
theorem point_mem_text_iff {d : Decimal} (h : d.WellFormed) : '.' ∈ d.text ↔ d.fraction ≠ [] := by
  have hwhole : '.' ∉ d.whole := fun hmem => absurd (h.whole_digits '.' hmem) (by decide)
  have hsuffix :
      '.' ∉ d.exponent.elim [] fun exponent => 'e' :: Double.exponentText exponent := by
    cases d.exponent with
    | none => exact List.not_mem_nil
    | some exponent =>
        have hdigits : '.' ∉ Numeral.atLeast 2 (Numeral.digits 10 exponent.natAbs) :=
          fun hmem => absurd (Numeral.isDigit_of_mem_atLeast hmem) (by decide)
        simp only [Option.elim_some, Double.exponentText, List.mem_cons, hdigits, or_false]
        split <;> decide
  by_cases hfraction : d.fraction = []
  · simp [text, hfraction, hwhole, hsuffix]
  · simp [text, hfraction]

/-! ## Exponents -/

def withExponent (d : Decimal) (exponent : ℤ) : Decimal := { d with exponent := some exponent }

theorem WellFormed.withExponent {d : Decimal} (h : d.WellFormed) (exponent : ℤ) :
    (d.withExponent exponent).WellFormed :=
  ⟨h.whole_ne_nil, h.whole_digits, h.fraction_digits⟩

theorem text_withExponent {d : Decimal} (h : d.exponent = none) (exponent : ℤ) :
    (d.withExponent exponent).text = Double.withExponent d.text exponent := by
  rw [Double.withExponent, text, text, h, Option.elim_none, List.append_nil]
  rfl

/-! ## Trailing zeros -/

/-- The fraction without the zeros at its end. -/
def trimmed (d : Decimal) : Decimal := { d with fraction := d.fraction.rdropWhile (· == '0') }

theorem exists_fraction_eq (d : Decimal) :
    ∃ n, d.fraction = d.trimmed.fraction ++ List.replicate n '0' := by
  refine ⟨(d.fraction.rtakeWhile (· == '0')).length, ?_⟩
  have hzeros : d.fraction.rtakeWhile (· == '0') =
      List.replicate (d.fraction.rtakeWhile (· == '0')).length '0' := by
    rw [List.eq_replicate_iff]
    exact ⟨rfl, fun c hc => by simpa using List.mem_rtakeWhile_imp hc⟩
  rw [← hzeros]
  exact List.rdropWhile_append_rtakeWhile.symm

theorem number_trimmed (d : Decimal) : d.trimmed.number = d.number := by
  obtain ⟨n, hfraction⟩ := d.exists_fraction_eq
  have hten : (10 : ℚ) ≠ 0 := by norm_num
  have hwhole : d.trimmed.whole = d.whole := rfl
  have hexponent : d.trimmed.exponent = d.exponent := rfl
  rw [number, number, hfraction, ← List.append_assoc, Numeral.value_append_zeros, hwhole, hexponent,
    List.length_append, List.length_replicate]
  push_cast
  rw [← sub_sub, zpow_sub₀ hten _ (n : ℤ), zpow_natCast]
  field_simp

theorem WellFormed.trimmed {d : Decimal} (h : d.WellFormed) : d.trimmed.WellFormed where
  whole_ne_nil := h.whole_ne_nil
  whole_digits := h.whole_digits
  fraction_digits c hc :=
    h.fraction_digits c ((List.rdropWhile_prefix (· == '0') d.fraction).subset hc)

theorem getLast?_trimmed_ne (d : Decimal) : d.trimmed.fraction.getLast? ≠ some '0' := by
  intro hlast
  have hne : d.trimmed.fraction ≠ [] := by
    intro hnil
    rw [hnil] at hlast
    cases hlast
  have hzero := List.rdropWhile_last_not (· == '0') d.fraction hne
  rw [List.getLast?_eq_some_getLast hne] at hlast
  exact hzero (beq_iff_eq.mpr (Option.some.inj hlast))

theorem stripFraction_text {d : Decimal} (h : d.WellFormed) (hexponent : d.exponent = none) :
    Numeral.stripFraction d.text = d.trimmed.text := by
  have htrimmed : d.trimmed.text =
      d.whole ++ if d.trimmed.fraction = [] then [] else '.' :: d.trimmed.fraction := by
    have hnone : d.trimmed.exponent = none := hexponent
    have hwhole : d.trimmed.whole = d.whole := rfl
    simp [text, hnone, hwhole]
  have hwhole : ∀ c ∈ d.whole, c ≠ '.' :=
    fun c hc => bne_iff_ne.mp (bne_of_isDigit (h.whole_digits c hc) rfl)
  by_cases hfraction : d.fraction = []
  · have hmem : '.' ∉ d.whole := fun hmem => hwhole '.' hmem rfl
    have hnil : d.trimmed.fraction = [] := by simp [trimmed, hfraction]
    rw [htrimmed, hnil]
    simp [text, hexponent, hfraction, Numeral.stripFraction, hmem]
  · obtain ⟨n, hsplit⟩ := d.exists_fraction_eq
    have htext : d.text = d.whole ++ '.' :: (d.trimmed.fraction ++ List.replicate n '0') := by
      rw [text, if_neg hfraction, hexponent, hsplit]
      simp
    have hdigits : ∀ c ∈ d.trimmed.fraction, c ≠ '.' :=
      fun c hc => bne_iff_ne.mp (bne_of_isDigit (h.trimmed.fraction_digits c hc) rfl)
    rw [htext, htrimmed, Numeral.stripFraction_zeros hwhole hdigits d.getLast?_trimmed_ne]

/-- The zeros at the end of the fraction stay only if they are asked for. -/
def trimmedUnless (alternate : Bool) (d : Decimal) : Decimal :=
  if alternate then d else d.trimmed

section TrimmedUnless

variable (alternate : Bool) (d : Decimal)

theorem whole_trimmedUnless : (d.trimmedUnless alternate).whole = d.whole := by
  cases alternate <;> rfl

theorem exponent_trimmedUnless : (d.trimmedUnless alternate).exponent = d.exponent := by
  cases alternate <;> rfl

theorem number_trimmedUnless : (d.trimmedUnless alternate).number = d.number := by
  cases alternate with
  | true => rfl
  | false => exact d.number_trimmed

end TrimmedUnless

theorem WellFormed.trimmedUnless {d : Decimal} (h : d.WellFormed) (alternate : Bool) :
    (d.trimmedUnless alternate).WellFormed := by
  cases alternate with
  | true => exact h
  | false => exact h.trimmed

/-! ## Scaled values -/

/-- `scaled / 10 ^ places` with `places` digits behind the point. -/
def ofScaled (scaled places : ℕ) : Decimal where
  whole := Numeral.digits 10 (scaled / 10 ^ places)
  fraction :=
    if places = 0 then [] else Numeral.atLeast places (Numeral.digits 10 (scaled % 10 ^ places))
  exponent := none

theorem wellFormed_ofScaled (scaled places : ℕ) : (ofScaled scaled places).WellFormed where
  whole_ne_nil := Numeral.digits_ne_nil _
  whole_digits _ hc := Numeral.isDigit_of_mem_digits hc
  fraction_digits c hc := by
    unfold ofScaled at hc
    split at hc
    · cases hc
    · exact Numeral.isDigit_of_mem_atLeast hc

theorem length_fraction_ofScaled (scaled places : ℕ) :
    (ofScaled scaled places).fraction.length = places := by
  by_cases hplaces : places = 0
  · simp [ofScaled, hplaces]
  · have hmod : scaled % 10 ^ places < 10 ^ places := Nat.mod_lt _ (Nat.pow_pos (by decide))
    have hlength : (Numeral.digits 10 (scaled % 10 ^ places)).length ≤ places :=
      (Nat.length_toDigits_le_iff (by decide) (Nat.pos_of_ne_zero hplaces)).mpr hmod
    rw [ofScaled, if_neg hplaces, Numeral.length_atLeast]
    exact max_eq_left hlength

theorem value_ofScaled (scaled places : ℕ) :
    Numeral.value ((ofScaled scaled places).whole ++ (ofScaled scaled places).fraction) =
      scaled := by
  have hfraction : Numeral.value (ofScaled scaled places).fraction = scaled % 10 ^ places := by
    by_cases hplaces : places = 0
    · simp [ofScaled, hplaces, Nat.mod_one, Numeral.value]
    · rw [ofScaled, if_neg hplaces, Numeral.atLeast, Numeral.value_zeros_append,
        Numeral.value_digits]
  rw [Numeral.value_append, length_fraction_ofScaled, hfraction, ofScaled, Numeral.value_digits]
  exact Nat.div_add_mod scaled (10 ^ places)

theorem number_ofScaled (scaled places : ℕ) :
    (ofScaled scaled places).number = scaled * 10 ^ (-(places : ℤ)) := by
  have hexponent : (ofScaled scaled places).exponent = none := rfl
  rw [number, value_ofScaled, length_fraction_ofScaled, hexponent, Option.getD_none, zero_sub]

theorem number_ofScaled_withExponent (scaled places : ℕ) (exponent : ℤ) :
    ((ofScaled scaled places).withExponent exponent).number =
      scaled * 10 ^ (exponent - (places : ℤ)) := by
  simp only [number, withExponent, value_ofScaled, length_fraction_ofScaled, Option.getD_some]

theorem text_ofScaled (scaled places : ℕ) :
    (ofScaled scaled places).text = Numeral.pointed scaled places := by
  by_cases hplaces : places = 0
  · simp [text, ofScaled, Numeral.pointed, hplaces]
  · have hne : (ofScaled scaled places).fraction ≠ [] := by
      intro hnil
      have hlength := length_fraction_ofScaled scaled places
      rw [hnil] at hlength
      exact hplaces hlength.symm
    rw [text, if_neg hne, Numeral.pointed, if_neg hplaces]
    simp [ofScaled, hplaces]

/-- Zeros behind the last place are those of a scale with as many more places. -/
theorem pointed_mul_pow (scaled : ℕ) {places : ℕ} (h : 0 < places) (n : ℕ) :
    Numeral.pointed (scaled * 10 ^ n) (places + n) =
      Numeral.pointed scaled places ++ List.replicate n '0' := by
  have hpow : 0 < 10 ^ n := Nat.pow_pos (by decide)
  have hwhole :
      (ofScaled (scaled * 10 ^ n) (places + n)).whole = (ofScaled scaled places).whole := by
    simp only [ofScaled]
    rw [Nat.pow_add, Nat.mul_div_mul_right _ _ hpow]
  have hfraction : (ofScaled (scaled * 10 ^ n) (places + n)).fraction =
      (ofScaled scaled places).fraction ++ List.replicate n '0' := by
    apply Numeral.eq_of_value_eq
    · exact (wellFormed_ofScaled _ _).fraction_digits
    · intro c hc
      rcases List.mem_append.mp hc with hc | hc
      · exact (wellFormed_ofScaled _ _).fraction_digits c hc
      · rw [List.eq_of_mem_replicate hc]
        rfl
    · rw [List.length_append, List.length_replicate, length_fraction_ofScaled,
        length_fraction_ofScaled]
    · have hall := value_ofScaled (scaled * 10 ^ n) (places + n)
      have hpart := value_ofScaled scaled places
      rw [Numeral.value_append, length_fraction_ofScaled] at hall hpart
      rw [hwhole, Nat.pow_add] at hall
      have hscaled := congrArg (· * 10 ^ n) hpart
      simp only [Nat.add_mul] at hscaled
      rw [Numeral.value_append_zeros]
      linarith
  have hne : (ofScaled scaled places).fraction ≠ [] := by
    rw [← List.length_pos_iff, length_fraction_ofScaled]
    exact h
  rw [← text_ofScaled, ← text_ofScaled, text, text, hwhole, hfraction, if_neg hne,
    if_neg (List.append_ne_nil_of_left_ne_nil hne _)]
  simp [ofScaled]

end Decimal

end CellMachine
