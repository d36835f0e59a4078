import CellMachine.Proofs.Radix
import CellMachine.Proofs.Whole
/-!
# Whole numbers as values

An integer may reach a conversion as a 64-bit integer or as a double, and each conversion treats the
two apart.  A double that equals an integer has that integer part, sign and residue.  A character is
found through a double in both cases; rounding takes no code into the range of characters, and out
of it neither.  Main statement: the conversions of integers and characters write the same text for
both.
-/

namespace CellMachine

namespace Double

/-! ## Exact integers -/

theorem toRat?_ofInt {n : ℤ} (h : n.natAbs ≤ 2 ^ 53) : (ofInt n).toRat? = some (n : ℚ) := by
  have hfinite := nearestUnits_lt_overflowUnits (n := n.natAbs) (by omega)
  have hmagnitude : ((nearestUnits (n.natAbs * unitsPerOne) 1 : ℕ) / (unitsPerOne : ℕ) : ℚ) =
      n.natAbs := by
    have hpos : (0 : ℚ) < unitsPerOne := by exact_mod_cast unitsPerOne_pos
    rw [nearestUnits_whole h, Nat.cast_mul, mul_div_cancel_right₀ _ hpos.ne']
  rw [ofInt, ofRatio, ofUnits, dif_pos hfinite, toRat?, hmagnitude, Nat.cast_natAbs]
  by_cases hneg : n < 0
  · simp [hneg, abs_of_neg hneg]
  · simp [hneg, abs_of_nonneg (not_lt.mp hneg)]

theorem trunc?_of_toRat? {x : Double} {n : ℤ} (h : x.toRat? = some (n : ℚ)) :
    x.trunc? = some n := by
  rw [trunc?_eq_map_toRat?, h, Option.map_some, towardZero_intCast]

theorem toInt64_of_trunc? {x : Double} {n : Int64} (h : x.trunc? = some n.toInt) :
    x.toInt64 = n := by
  rw [toInt64, h, Option.getD_some, Int64.ofIntClamp_toInt]

theorem isFinite_of_trunc? {x : Double} {n : ℤ} (h : x.trunc? = some n) : x.isFinite = true := by
  cases x with
  | finite negative units representable => rfl
  | nan | infinite negative => cases h

/-! ## Rounded integers -/

/-- An integer that is rounded keeps its sign and stays far from zero. -/
theorem exists_trunc?_ofInt_of_large {n : ℤ} (hlarge : 2 ^ 53 ≤ n.natAbs)
    (h : n.natAbs < 2 ^ 64) :
    ∃ k : ℕ, 2 ^ 53 ≤ k ∧ (ofInt n).trunc? = some (if n < 0 then -(k : ℤ) else k) := by
  have hunits := le_nearestUnits hlarge 1074
  rw [← unitsPerOne] at hunits
  refine ⟨nearestUnits (n.natAbs * unitsPerOne) 1 / unitsPerOne,
    (Nat.le_div_iff_mul_le unitsPerOne_pos).mpr hunits, ?_⟩
  rw [ofInt, trunc?_ofRatio_one _ h]
  simp only [decide_eq_true_eq]

theorem toInt_ofIntClamp_eq (n : ℤ) :
    (Int64.ofIntClamp n).toInt = max (-2 ^ 63) (min n (2 ^ 63 - 1)) := by
  have hmin : Int64.minValue.toInt = -2 ^ 63 := Int64.toInt_minValue
  have hmax : Int64.maxValue.toInt = 2 ^ 63 - 1 := Int64.toInt_maxValue
  by_cases hlow : Int64.minValue.toInt ≤ n
  · by_cases hhigh : n ≤ Int64.maxValue.toInt
    · rw [Int64.toInt_ofIntClamp hlow hhigh]
      omega
    · rw [Int64.ofIntClamp, dif_pos hlow, dif_neg hhigh]
      omega
  · rw [Int64.ofIntClamp, dif_neg hlow]
    omega

end Double

/-! ## Characters -/

/-- The integer is a Unicode scalar value. -/
def Text.IsScalar (n : ℤ) : Prop := 0 ≤ n ∧ n < 0xD800 ∨ 0xDFFF < n ∧ n < 0x110000

theorem Text.toNat_ofCode {code : Int64} (h : IsScalar code.toInt) :
    ((ofCode code).toNat : ℤ) = code.toInt := by
  have hnonneg : 0 ≤ code.toInt := by
    rcases h with h | h <;> omega
  have hvalid : code.toInt.toNat.isValidChar := by
    rcases h with h | h
    · exact .inl (by omega)
    · exact .inr (by omega)
  have hback : (Char.ofNat code.toInt.toNat).toNat = code.toInt.toNat := by
    rw [Char.ofNat, dif_pos hvalid]
    rfl
  rw [ofCode, if_pos ⟨hnonneg, hvalid⟩, hback, Int.toNat_of_nonneg hnonneg]

theorem Text.ofCode_of_not_isScalar {code : Int64} (h : ¬IsScalar code.toInt) :
    ofCode code = replacement := by
  rw [ofCode, if_neg]
  rintro ⟨hnonneg, hlow | hhigh⟩
  · exact h (.inl (by omega))
  · exact h (.inr (by omega))

namespace Value

theorem toChar_of_trunc? {v : Value} {n : Int64} (h : v.toDouble.trunc? = some n.toInt) :
    v.toChar = Text.ofCode n := by
  rw [toChar, if_pos (Double.isFinite_of_trunc? h), Double.toInt64_of_trunc? h]

/-- The way through a double leads every integer to the character that it is the code of. -/
theorem toChar_int (n : Int64) : (Value.int n).toChar = Text.ofCode n := by
  have hleast := n.le_toInt
  have hgreatest := n.toInt_lt
  have hdouble : (Value.int n).toDouble = .ofInt n.toInt := by rw [toDouble]
  by_cases hexact : n.toInt.natAbs ≤ 2 ^ 53
  · apply toChar_of_trunc?
    rw [hdouble, Double.trunc?_ofInt hexact]
  · obtain ⟨k, hk, htrunc⟩ :=
      Double.exists_trunc?_ofInt_of_large (n := n.toInt) (by omega) (by omega)
    have hinteger : (Double.ofInt n.toInt).toInt64 =
        Int64.ofIntClamp (if n.toInt < 0 then -(k : ℤ) else k) := by
      rw [Double.toInt64, htrunc, Option.getD_some]
    rw [toChar, hdouble, if_pos (Double.isFinite_of_trunc? htrunc), hinteger]
    -- Neither the integer nor what it is rounded to is the code of a character.
    rw [Text.ofCode_of_not_isScalar, Text.ofCode_of_not_isScalar]
    · unfold Text.IsScalar
      omega
    · rw [Double.toInt_ofIntClamp_eq, Text.IsScalar]
      split <;> omega

theorem toChar_float {x : Double} {n : Int64} (h : x.trunc? = some n.toInt) :
    (Value.float x).toChar = (Value.int n).toChar := by
  rw [toChar_int]
  exact toChar_of_trunc? h

theorem toUInt32_float {x : Double} {n : Int64} (h : x.trunc? = some n.toInt) :
    (Value.float x).toUInt32 = (Value.int n).toUInt32 := by
  have hdouble : (Value.float x).toUInt32 = x.toUInt32 := rfl
  rw [hdouble, Double.toUInt32, h, Option.getD_some, toUInt32]

theorem toInteger_float {x : Double} {n : Int64} (h : x.trunc? = some n.toInt) :
    (Value.float x).toInteger = (Value.int n).toInteger := by
  have hdouble : (Value.float x).toInteger = x.trunc?.getD 0 := rfl
  rw [hdouble, h, Option.getD_some, toInteger]

end Value

/-! ## Layouts -/

/-- The letters of the conversions that take an integer. -/
def Conversion.integerLetters : Text := ['d', 'i', 'u', 'b', 'o', 'x', 'X', 'c']

theorem Conversion.ofLetter?_integerLetters {letter : Char} {conversion : Conversion}
    (hmem : letter ∈ integerLetters) (h : ofLetter? letter = some conversion) :
    conversion.isFloating = false ∧ conversion ≠ .str := by
  simp only [integerLetters, List.mem_cons, List.not_mem_nil, or_false] at hmem
  rcases hmem with rfl | rfl | rfl | rfl | rfl | rfl | rfl | rfl <;>
    (cases h; exact ⟨rfl, nofun⟩)

namespace Layout

theorem field_float {layout : Layout} (hfloating : layout.conversion.isFloating = false)
    (hstr : layout.conversion ≠ .str) (m : Memory) {x : Double} {n : Int64}
    (hx : x.trunc? = some n.toInt) :
    layout.field m (.float x) = layout.field m (.int n) := by
  unfold field
  rw [Value.toChar_float hx, Value.toUInt32_float hx, Value.toInteger_float hx]
  cases hconversion : layout.conversion with
  | str => exact absurd hconversion hstr
  | exponent upper | fixed upper | general upper =>
      rw [hconversion] at hfloating
      cases hfloating
  | _ => rfl

/-- A conversion of integers or characters does not see how an integer is kept: in every layout it
writes the same text for the integer and for each double that equals it, of which there are two if
it is zero.  Every integer up to `2 ^ 53` is a double. -/
theorem integers_render_alike (letter : Char) (conversion : Conversion) (flags : Flags)
    (width : ℕ) (precision : Option ℕ) (m : Memory) (n : Int64)
    (hletter : letter ∈ Conversion.integerLetters)
    (hconversion : Conversion.ofLetter? letter = some conversion) :
    (n.toInt.natAbs ≤ 2 ^ 53 → (Double.ofInt n.toInt).toRat? = some (n.toInt : ℚ)) ∧
    ∀ x : Double, x.toRat? = some (n.toInt : ℚ) →
      render ⟨flags, width, precision, conversion⟩ m (.float x) =
        render ⟨flags, width, precision, conversion⟩ m (.int n) := by
  obtain ⟨hfloating, hstr⟩ := Conversion.ofLetter?_integerLetters hletter hconversion
  refine ⟨Double.toRat?_ofInt, ?_⟩
  intro x hx
  unfold render
  rw [field_float hfloating hstr m (Double.trunc?_of_toRat? hx)]

/-- A large negative integer wraps around in hexadecimal, and the zero with a minus sign is written
with a plus. -/
theorem integers_render_alike_edges :
    let negativeZero : Double := .finite true 0 ⟨0, 0, by decide, by decide, rfl⟩
    let hex : Layout := ⟨{ zero := true, alternate := true }, 12, some 9, .hex true⟩
    let signed : Layout := ⟨{ plus := true }, 4, none, .decimal⟩
    let n : Int64 := -9007199254740991
    'X' ∈ Conversion.integerLetters ∧ 'i' ∈ Conversion.integerLetters ∧
      n.toInt.natAbs ≤ 2 ^ 53 ∧ negativeZero.toRat? = some 0 ∧
      hex.render {} (.float (.ofInt n.toInt)) = "0X0000000001".toList ∧
      signed.render {} (.float negativeZero) = "  +0".toList := by
  intro negativeZero hex signed n
  have hX : 'X' ∈ Conversion.integerLetters := by decide
  have hi : 'i' ∈ Conversion.integerLetters := by decide
  have hn : n.toInt.natAbs ≤ 2 ^ 53 := by decide
  have hzero : negativeZero.toRat? = some 0 := by
    show some (-(((0 : ℕ) : ℚ) / Double.unitsPerOne)) = some 0
    rw [Nat.cast_zero, zero_div, neg_zero]
  have hhex := integers_render_alike 'X' (.hex true) hex.flags 12 (some 9) {} n hX rfl
  have hsigned := (integers_render_alike 'i' .decimal signed.flags 4 none {} 0 hi rfl).2
    negativeZero (by rw [hzero]; rfl)
  refine ⟨hX, hi, hn, hzero, ?_, ?_⟩
  · rw [show hex.render {} (.float (.ofInt n.toInt)) = _ from hhex.2 _ (hhex.1 hn)]
    decide +kernel
  · rw [show signed.render {} (.float negativeZero) = _ from hsigned]
    decide +kernel

end Layout

end CellMachine
