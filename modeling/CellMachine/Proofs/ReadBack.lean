import CellMachine.Proofs.LeadingInt
import CellMachine.Proofs.Padding
import CellMachine.Proofs.Run
import CellMachine.Proofs.Sprintf
import CellMachine.Proofs.Written
/-!
# Decimal integers read back

An integer in decimal is a sign and digits, with zeros among the digits and spaces around the whole
as the layout asks for.  A reader skips the spaces and the zeros change no value, so the magnitude
is read; it may be `2 ^ 63`, which wraps around, and so does its negation.  Main statement: in every
layout an integer reads back as itself, directly or from where `sprintf` has stored it.
-/

namespace CellMachine

namespace Numeral

/-! ## Reading -/

/-- Blanks, a sign and digits are read up to the end of the digits. -/
theorem leadingInt_append {blanks sign run rest : Text} (hblanks : ∀ c ∈ blanks, Text.isBlank c)
    (hsign : sign = [] ∨ sign = ['+'] ∨ sign = ['-']) (hne : run ≠ [])
    (hrun : ∀ c ∈ run, c.isDigit) (hrest : Text.Stops Char.isDigit rest) :
    leadingInt (blanks ++ (sign ++ (run ++ rest))) =
      if sign = ['-'] then -Int64.ofNat (value run) else Int64.ofNat (value run) := by
  have hmaximal : Head.Maximal ⟨blanks, sign, run, rest⟩ := by
    refine ⟨hblanks, ?_, hsign, ?_, hrun, hrest⟩
    · rcases hsign with rfl | rfl | rfl
      · cases run with
        | nil => exact absurd rfl hne
        | cons c run => simpa using Text.isBlank_eq_false_of_isDigit (hrun c (by simp))
      · simp [Text.isBlank, Text.blankRanges]
      · simp [Text.isBlank, Text.blankRanges]
    · intro _
      cases run with
      | nil => exact absurd rfl hne
      | cons c run => simpa using isSign_eq_false_of_isDigit (hrun c (by simp))
  exact hmaximal.leadingInt_eq

/-! ## Signs -/

theorem ofNat_natAbs_of_nonneg {n : Int64} (h : 0 ≤ n.toInt) :
    Int64.ofNat n.toInt.natAbs = n := by
  rw [← Int64.ofInt_eq_ofNat, Int.natAbs_of_nonneg h, Int64.ofInt_toInt]

theorem neg_ofNat_natAbs_of_neg {n : Int64} (h : n.toInt < 0) :
    -Int64.ofNat n.toInt.natAbs = n := by
  have hneg : -(n.toInt.natAbs : Int) = n.toInt := by omega
  rw [← Int64.ofInt_eq_ofNat, ← Int64.ofInt_neg, hneg, Int64.ofInt_toInt]

end Numeral

/-! ## Decimal layouts -/

/-- A decimal integer between spaces reads as itself, whatever sign the flags give it. -/
theorem Numeral.leadingInt_decimal (flags : Flags) {n : Int64} (before after : Nat) {run : Text}
    (hne : run ≠ []) (hrun : ∀ c ∈ run, c.isDigit) (hvalue : value run = n.toInt.natAbs) :
    leadingInt (List.replicate before ' ' ++ (Field.sign flags (n.toInt < 0) ++ run) ++
      List.replicate after ' ') = n := by
  have hspaces : ∀ c ∈ List.replicate before ' ', Text.isBlank c := by
    intro c hc
    rw [List.eq_of_mem_replicate hc]
    decide
  have hrest : Text.Stops Char.isDigit (List.replicate after ' ') := by
    cases after <;> simp [List.replicate_succ, Text.Stops]
  rw [List.append_assoc, List.append_assoc]
  by_cases hneg : n.toInt < 0
  · have hsign : Field.sign flags (n.toInt < 0) = ['-'] := by simp [Field.sign, hneg]
    rw [hsign, leadingInt_append hspaces (.inr (.inr rfl)) hne hrun hrest, if_pos rfl, hvalue,
      neg_ofNat_natAbs_of_neg hneg]
  · have hread : Int64.ofNat (value run) = n := by
      rw [hvalue, ofNat_natAbs_of_nonneg (by omega)]
    have hsign : Field.sign flags (n.toInt < 0) =
        if flags.plus then ['+'] else if flags.space then [' '] else [] := by
      simp [Field.sign, hneg, Flags.positiveSign]
    rw [hsign]
    split
    · rw [leadingInt_append hspaces (.inr (.inl rfl)) hne hrun hrest, if_neg (by decide), hread]
    · split
      · -- The space in place of a sign is one more blank.
        have hblanks : ∀ c ∈ List.replicate before ' ' ++ [' '], Text.isBlank c := by
          intro c hc
          rcases List.mem_append.mp hc with hspace | hlast
          · exact hspaces c hspace
          · rw [List.mem_singleton.mp hlast]
            decide
        have hparts := leadingInt_append hblanks (.inl rfl) hne hrun hrest
        rwa [List.append_assoc, List.nil_append, if_neg (by decide), hread] at hparts
      · rw [leadingInt_append hspaces (.inl rfl) hne hrun hrest, if_neg (by decide), hread]

namespace Layout

variable {layout : Layout}

theorem render_int_of_decimal (h : layout.conversion = .decimal) (m : Memory) (n : Int64) :
    layout.render m (.int n) = (Field.ofInteger layout n.toInt).justify layout.flags.left
      layout.flags.zero layout.width := by
  have hfield : layout.field m (.int n) = Field.ofInteger layout n.toInt := by
    simp only [field, h]
    rfl
  have htakes : (Field.ofInteger layout n.toInt).takesZeros = true := rfl
  simp only [render, hfield, htakes, h, Conversion.isUpper, Bool.and_true, Bool.false_eq_true,
    if_false]

theorem render_settled_int (h : layout.conversion = .decimal) (m : Memory) (n : Int64) :
    layout.settled.render m (.int n) = layout.render m (.int n) := by
  have hprecision : layout.settled.precision.getD 0 = layout.precision.getD 0 := by
    simp only [settled, h, Conversion.defaultPrecision]
    cases layout.precision <;> rfl
  have hfield : Field.ofInteger layout.settled n.toInt = Field.ofInteger layout n.toInt := by
    rw [Field.ofInteger, hprecision]
    rfl
  have hsettled : layout.settled.conversion = .decimal := h
  rw [render_int_of_decimal hsettled, render_int_of_decimal h, hfield]
  rfl

/-- The parts of an integer in decimal. -/
theorem exists_parts_of_decimal (h : layout.conversion = .decimal) (m : Memory) (n : Int64) :
    ∃ (before after : Nat) (digits : Text),
      layout.render m (.int n) =
        List.replicate before ' ' ++ (Field.sign layout.flags (n.toInt < 0) ++ digits) ++
          List.replicate after ' ' ∧
      (before = 0 ∨ after = 0) ∧ digits ≠ [] ∧ (∀ c ∈ digits, c.isDigit) ∧
      layout.precision.getD 0 ≤ digits.length ∧ Numeral.value digits = n.toInt.natAbs := by
  have hdigits : ∀ c ∈ Numeral.digits 10 n.toInt.natAbs, c.isDigit :=
    fun c hc => Numeral.isDigit_of_mem_digits hc
  have hlength := Numeral.length_atLeast (layout.precision.getD 0)
    (Numeral.digits 10 n.toInt.natAbs)
  rw [render_int_of_decimal h, Field.justify_eq]
  refine ⟨_, _, _, rfl, ?_, ?_, ?_, ?_, ?_⟩
  · cases layout.flags.left
    · exact .inr rfl
    · exact .inl rfl
  · simp [Field.ofInteger, Numeral.atLeast, Numeral.digits_ne_nil]
  · exact Numeral.forall_mem_zeros_append rfl (Numeral.forall_mem_zeros_append rfl hdigits)
  · simp only [Field.ofInteger, List.length_append, hlength]
    omega
  · rw [Numeral.value_zeros_append]
    simp only [Field.ofInteger, Numeral.atLeast]
    rw [Numeral.value_zeros_append, Numeral.value_digits]

end Layout

/-! ## Stored integers -/

theorem Field.null_not_mem_sign (flags : Flags) (negative : Bool) :
    '\x00' ∉ Field.sign flags negative := by
  unfold Field.sign Flags.positiveSign
  split
  · decide
  · split
    · decide
    · split <;> decide

theorem Layout.null_not_mem_render_int {layout : Layout} (h : layout.conversion = .decimal)
    (m : Memory) (n : Int64) : '\x00' ∉ layout.render m (.int n) := by
  obtain ⟨before, after, digits, htext, -, -, hdigits, -, -⟩ := exists_parts_of_decimal h m n
  have hnull : '\x00' ∉ digits := fun hmem => absurd (hdigits _ hmem) (by decide)
  rw [htext]
  simp [Field.null_not_mem_sign, hnull]

namespace Action

/-- What `sprintf` stores is read from its target, if it holds no null character. -/
theorem exists_sprintf_of_format {target template : Pointer} {values : List Value} {m : Machine}
    {text : Text} (htarget : target.block < m.memory.blocks.size)
    (hformat : Template.checkedFormat m.memory (m.memory.textAt template)
      (Vararg.resolveAll m.memory values) = some (.ok text)) (hnull : '\x00' ∉ text) :
    ∃ stored : Machine,
      sprintf target template values m = some (.ok (Int64.ofNat text.length), stored) ∧
      stored.memory.textAt target = text := by
  refine ⟨{ m with memory := m.memory.writeText target text }, ?_, ?_⟩
  · rw [sprintf_apply, hformat]
    rfl
  · rw [(Machine.stores_writeText text htarget).textAt_eq, Text.untilNull_of_not_mem hnull]

end Action

namespace Layout

/-- For all flags, widths and precisions, an integer in decimal is a sign and digits, at least as
many as the precision says, with spaces at one end at most.  It reads back as the integer.  It is
what the directive of the layout expands to, and wherever `sprintf` stores it, `atol` reads the
integer there and `atoi` the integer modulo `2 ^ 32`, as a signed number. -/
theorem decimal_reads_back (flags : Flags) (width : Nat) (precision : Option Nat) (n : Int64)
    (m : Machine) (hwidth : width ≤ 2147483647) (hprecision : ∀ p ∈ precision, p ≤ 2147483647) :
    let layout : Layout := ⟨flags, width, precision, .decimal⟩
    let sign : Text := if n.toInt < 0 then ['-'] else
      if flags.plus then ['+'] else if flags.space then [' '] else []
    let text : Text := layout.render m.memory (.int n)
    (∃ (before after : Nat) (digits : Text),
      text = List.replicate before ' ' ++ (sign ++ digits) ++ List.replicate after ' ' ∧
      (before = 0 ∨ after = 0) ∧ digits ≠ [] ∧ (∀ c ∈ digits, c.isDigit) ∧
      precision.getD 0 ≤ digits.length) ∧
    Numeral.leadingInt text = n ∧
    Template.checkedFormat m.memory layout.written.spelling [.int n] = some (.ok text) ∧
    ∀ (target template : Pointer) (values : List Value), target.block < m.memory.blocks.size →
      Template.checkedFormat m.memory (m.memory.textAt template)
        (Vararg.resolveAll m.memory values) = some (.ok text) →
      ∃ (stored : Machine) (reduced : Int64),
        Action.sprintf target template values m = some (.ok (Int64.ofNat text.length), stored) ∧
        stored.memory.textAt target = text ∧
        Action.atol target stored = some (.ok n, stored) ∧
        Action.atoi target stored = some (.ok reduced, stored) ∧
        reduced.toInt = n.toInt.bmod (2 ^ 32) := by
  intro layout sign text
  have hdecimal : layout.conversion = .decimal := rfl
  have hrange : layout.InRange := ⟨hwidth, hprecision⟩
  have hsign : Field.sign layout.flags (n.toInt < 0) = sign := by
    simp [Field.sign, Flags.positiveSign, layout, sign]
  obtain ⟨before, after, digits, htext, hone, hne, hdigits, hleast, hvalue⟩ :=
    exists_parts_of_decimal hdecimal m.memory n
  have hread : Numeral.leadingInt text = n := by
    show Numeral.leadingInt (layout.render m.memory (.int n)) = n
    rw [htext, Numeral.leadingInt_decimal _ _ _ hne hdigits hvalue]
  refine ⟨⟨before, after, digits, hsign ▸ htext, hone, hne, hdigits, hleast⟩, hread, ?_, ?_⟩
  · have hchecked : layout.settled.overflows (.int n) = false := rfl
    rw [hrange.checkedFormat_written, hchecked, render_settled_int hdecimal]
    rfl
  · intro target template values htarget hformat
    obtain ⟨stored, hsprintf, hstored⟩ := Action.exists_sprintf_of_format htarget hformat
      (null_not_mem_render_int hdecimal m.memory n)
    refine ⟨stored, n.toInt32.toInt64, hsprintf, hstored, ?_, ?_, ?_⟩
    · rw [Action.atol_apply, hstored, hread]
    · rw [Action.atoi_apply, hstored, hread]
    · rw [Int32.toInt_toInt64, Int64.toInt_toInt32]

/-- The least integer, stored over the end of the template `%+ 025.3d` that it is printed with. -/
theorem decimal_reads_back_least :
    let flags : Flags := { plus := true, space := true, zero := true }
    let layout : Layout := ⟨flags, 25, some 3, .decimal⟩
    let run : List Value := Memory.terminated "%+ 025.3d".toList
    let m : Machine := { memory := { blocks := #[run.toArray] } }
    let template : Pointer := { block := 0 }
    let target : Pointer := { block := 0, offset := 4 }
    let text : Text := "-000009223372036854775808".toList
    m.memory.textAt template = layout.written.spelling ∧
      layout.render m.memory (.int Int64.minValue) = text ∧
      ∃ stored, Action.sprintf target template [.int Int64.minValue] m = some (.ok 25, stored) ∧
        Action.atol target stored = some (.ok Int64.minValue, stored) ∧
        Action.atoi target stored = some (.ok 0, stored) := by
  intro flags layout run m template target text
  have hspelling : m.memory.textAt template = layout.written.spelling := by decide +kernel
  have hrender : layout.render m.memory (.int Int64.minValue) = text := by decide +kernel
  obtain ⟨-, -, hformat, hstores⟩ :=
    decimal_reads_back flags 25 (some 3) Int64.minValue m (by decide) (by decide)
  rw [← hspelling] at hformat
  obtain ⟨stored, reduced, hsprintf, -, hatol, hatoi, hreduced⟩ :=
    hstores target template [.int Int64.minValue] (by decide) hformat
  have hlength : Int64.ofNat (layout.render m.memory (.int Int64.minValue)).length = 25 := by
    rw [hrender]
    decide
  have hzero : reduced = 0 := by
    rw [← Int64.toInt_inj, hreduced]
    decide
  rw [hzero] at hatoi
  rw [hlength] at hsprintf
  exact ⟨hspelling, hrender, stored, hsprintf, hatol, hatoi⟩

end Layout

end CellMachine
