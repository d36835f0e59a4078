import CellMachine.Template.Field
/-!
# Padding

What a value converts to is a field, and the field does not depend on the width.  The upper-case
conversions change letters only, so it makes no difference whether the case is changed before the
padding or after it.  Main statement: the text at any width is the text at width zero, with spaces
at one end of it or with zeros right behind its sign or base mark.
-/

namespace CellMachine

/-- What becomes of each character of the text. -/
def Conversion.recase (c : Conversion) : Char → Char := if c.isUpper then Char.toUpper else id

/-- The conversions to fixed, exponential and general notation. -/
def Conversion.isFloating : Conversion → Bool
  | .exponent _ | .fixed _ | .general _ => true
  | _ => false

theorem Numeral.forall_mem_zeros_append {p : Char → Prop} {n : Nat} {run : Text} (hzero : p '0')
    (hrun : ∀ c ∈ run, p c) : ∀ c ∈ List.replicate n '0' ++ run, p c := by
  intro c hc
  rcases List.mem_append.mp hc with hmem | hmem
  · rwa [List.eq_of_mem_replicate hmem]
  · exact hrun c hmem

theorem Conversion.recase_eq_self (c : Conversion) {letter : Char}
    (h : letter.toUpper = letter) : c.recase letter = letter := by
  unfold recase
  split
  · exact h
  · rfl

namespace Field

def map (g : Char → Char) (f : Field) : Field :=
  { f with lead := f.lead.map g, body := f.body.map g }

theorem text_map (g : Char → Char) (f : Field) : (f.map g).text = f.text.map g := by
  simp [text, map]

theorem drop_lead_text (f : Field) : f.text.drop f.lead.length = f.body := by
  rw [text, List.drop_left]

/-- A padded field is the field with spaces at one end and zeros behind its lead. -/
theorem justify_eq (f : Field) (left zeros : Bool) (width : Nat) :
    let missing := width - f.text.length
    f.justify left zeros width =
      List.replicate (if left || zeros then 0 else missing) ' ' ++
        (f.lead ++ (List.replicate (if !left && zeros then missing else 0) '0' ++ f.body)) ++
        List.replicate (if left then missing else 0) ' ' := by
  intro missing
  have hjustify : f.justify left zeros width =
      if missing = 0 then f.text
      else if left then f.text ++ List.replicate missing ' '
      else if zeros then f.lead ++ List.replicate missing '0' ++ f.body
      else List.replicate missing ' ' ++ f.text := rfl
  rw [hjustify]
  by_cases hfull : missing = 0
  · simp [hfull, text]
  · cases left <;> cases zeros <;> simp [hfull, text]

theorem justify_eq_ite (f : Field) (left zeros : Bool) (width : Nat) :
    f.justify left zeros width =
      if width ≤ f.text.length then f.text
      else if left then f.text ++ List.replicate (width - f.text.length) ' '
      else if zeros then
        f.lead ++ List.replicate (width - f.text.length) '0' ++ f.text.drop f.lead.length
      else List.replicate (width - f.text.length) ' ' ++ f.text := by
  rw [drop_lead_text]
  simp only [justify, Nat.sub_eq_zero_iff_le]

theorem justify_zero (f : Field) (left zeros : Bool) : f.justify left zeros 0 = f.text := by
  simp [justify]

theorem length_justify (f : Field) (left zeros : Bool) (width : Nat) :
    (f.justify left zeros width).length = max f.text.length width := by
  have htext : f.text.length = f.lead.length + f.body.length := List.length_append
  rw [justify_eq]
  simp only [List.length_append, List.length_replicate]
  cases left <;> cases zeros <;> simp <;> omega

theorem map_justify {g : Char → Char} (hspace : g ' ' = ' ') (hzero : g '0' = '0') (f : Field)
    (left zeros : Bool) (width : Nat) :
    (f.justify left zeros width).map g = (f.map g).justify left zeros width := by
  have hlength : (f.map g).text.length = f.text.length := by rw [text_map, List.length_map]
  rw [justify_eq, justify_eq, hlength]
  simp [map, hspace, hzero]

theorem map_recase_sign (c : Conversion) (flags : Flags) (negative : Bool) :
    (sign flags negative).map c.recase = sign flags negative := by
  have hminus : c.recase '-' = '-' := c.recase_eq_self rfl
  have hplus : c.recase '+' = '+' := c.recase_eq_self rfl
  have hspace : c.recase ' ' = ' ' := c.recase_eq_self rfl
  unfold sign Flags.positiveSign
  cases negative <;> cases flags.plus <;> cases flags.space <;> simp [hminus, hplus, hspace]

end Field

namespace Layout

/-- The sign of a number or the mark of its base, as it stands in front of the digits. -/
def mark (layout : Layout) (v : Value) : Text :=
  let ofBase (mark : Text) := if layout.flags.alternate ∧ v.toUInt32 ≠ 0 then mark else []
  match layout.conversion with
  | .str | .char | .unsigned => []
  | .binary => ofBase ['0', 'b']
  | .octal => ofBase ['0']
  | .hex upper => ofBase ['0', if upper then 'X' else 'x']
  | .decimal => Field.sign layout.flags (v.toInteger < 0)
  | .exponent _ | .fixed _ | .general _ => Field.sign layout.flags v.toDouble.isNegative

/-- The field of a value in the case of the conversion. -/
def shown (layout : Layout) (m : Memory) (v : Value) : Field :=
  (layout.field m v).map layout.conversion.recase

/-- Whether zeros pad the text of a value in place of spaces. -/
def zeroPads (layout : Layout) (v : Value) : Bool :=
  layout.flags.zero && !(layout.conversion.isFloating && !v.toDouble.isFinite)

theorem takesZeros_field (layout : Layout) (m : Memory) (v : Value) :
    (layout.field m v).takesZeros = !(layout.conversion.isFloating && !v.toDouble.isFinite) := by
  have hfloating : (Field.ofDouble layout v.toDouble).takesZeros = v.toDouble.isFinite := by
    cases v.toDouble <;> rfl
  unfold field
  cases layout.conversion with
  | exponent upper | fixed upper | general upper => simpa [Conversion.isFloating] using hfloating
  | _ => rfl

theorem render_eq_justify (layout : Layout) (m : Memory) (v : Value) :
    layout.render m v =
      (layout.shown m v).justify layout.flags.left (layout.zeroPads v) layout.width := by
  have hspace : layout.conversion.recase ' ' = ' ' := Conversion.recase_eq_self _ rfl
  have hzero : layout.conversion.recase '0' = '0' := Conversion.recase_eq_self _ rfl
  rw [shown, ← Field.map_justify hspace hzero, zeroPads, ← takesZeros_field layout m v]
  unfold render Conversion.recase
  cases layout.conversion.isUpper with
  | false => simp
  | true => simp [Text.upper]

theorem lead_shown (layout : Layout) (m : Memory) (v : Value) :
    (layout.shown m v).lead = layout.mark v := by
  have hbase (mark : Text) : (if layout.flags.alternate ∧ v.toUInt32 ≠ 0 then mark else []).map
      layout.conversion.recase = if layout.flags.alternate ∧ v.toUInt32 ≠ 0 then
        mark.map layout.conversion.recase else [] := by
    split <;> rfl
  have hsign (negative : Bool) := Field.map_recase_sign layout.conversion layout.flags negative
  unfold shown Field.map field mark
  cases hconversion : layout.conversion with
  | str | char => rfl
  | unsigned => simp [Field.ofRadix]
  | binary | octal =>
      rw [hconversion] at hbase
      simp only [Field.ofRadix, hbase]
      rfl
  | hex upper =>
      rw [hconversion] at hbase
      simp only [Field.ofRadix, hbase]
      cases upper <;> rfl
  | decimal =>
      rw [hconversion] at hsign
      exact hsign _
  | exponent upper | fixed upper | general upper =>
      rw [hconversion] at hsign
      have hlead : (Field.ofDouble layout v.toDouble).lead =
          Field.sign layout.flags v.toDouble.isNegative := by
        cases v.toDouble <;> rfl
      simp only [hlead]
      exact hsign _

/-- The text of a value at a width is its text at width zero if that is long enough.  Else it is
filled up to the width: with spaces behind it, with zeros right behind its sign or base mark, or
with spaces in front of it. -/
theorem render_width_law (layout : Layout) (m : Memory) (v : Value) (width : Nat) :
    let bare : Text := Layout.render { layout with width := 0 } m v
    let full : Text := Layout.render { layout with width := width } m v
    let mark : Text := layout.mark v
    let missing := width - bare.length
    mark <+: bare ∧
    full.length = max bare.length width ∧
    full =
      if width ≤ bare.length then bare
      else if layout.flags.left then bare ++ List.replicate missing ' '
      else if layout.flags.zero ∧
          ¬(layout.conversion.isFloating ∧ v.toDouble.isFinite = false) then
        mark ++ List.replicate missing '0' ++ bare.drop mark.length
      else List.replicate missing ' ' ++ bare := by
  intro bare full mark missing
  -- The field in its final case is the same at both widths; only the padding differs.
  have hbare : bare = (layout.shown m v).text := by
    rw [← Field.justify_zero _ layout.flags.left (layout.zeroPads v)]
    exact render_eq_justify _ m v
  have hfull : full = (layout.shown m v).justify layout.flags.left (layout.zeroPads v) width :=
    render_eq_justify _ m v
  have hmark : (layout.shown m v).lead = mark := lead_shown layout m v
  have hzeros : layout.zeroPads v = true ↔
      layout.flags.zero ∧ ¬(layout.conversion.isFloating ∧ v.toDouble.isFinite = false) := by
    cases hfloating : layout.conversion.isFloating <;> simp [zeroPads, hfloating]
  refine ⟨?_, ?_, ?_⟩
  · rw [hbare, ← hmark]
    exact List.prefix_append _ _
  · rw [hfull, hbare, Field.length_justify]
  · rw [hfull, Field.justify_eq_ite, hmark, ← hbare]
    simp only [hzeros, missing]

example : Layout.render ⟨{ zero := true, alternate := true }, 9, none, .hex true⟩ {} (.int 171) =
    "0X00000AB".toList := by decide +kernel

end Layout

end CellMachine
