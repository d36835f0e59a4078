import CellMachine.Proofs.Operands
import CellMachine.Proofs.Print
import CellMachine.Proofs.Whole
/-!
# Layouts written as directives

A layout whose width and precision are in range is written as a directive with both as numbers; a
width of zero is left out, since it would be read as a flag.  Main statement: the template of that
directive alone renders its argument in the layout.
-/

namespace CellMachine

-- By rewriting: to compare the two by evaluation, the double would be computed.
theorem Arguments.fst_count_literal (args : Arguments) (n : Nat) :
    (args.count (.literal n)).1 = .ofNat n := by
  rw [count]

namespace Directive

theorem checkWidth_ofNat (raw : Text) {n : Nat} (h : n ≤ countLimit) :
    checkWidth raw (.ofNat n) = .ok (n, false) := by
  have hexact : n ≤ 2 ^ 53 := Nat.le_trans h (by decide)
  rw [checkWidth, Double.trunc?_ofNat hexact, Double.isNegative_ofNat]
  simp only [Int.natAbs_natCast]
  rw [if_neg (by omega)]

theorem checkPrecision_ofNat (raw : Text) (conversion : Conversion) {n : Nat}
    (h : n ≤ countLimit) : checkPrecision raw conversion (.ofNat n) = .ok (some n) := by
  have hexact : n ≤ 2 ^ 53 := Nat.le_trans h (by decide)
  rw [checkPrecision, Double.trunc?_ofNat hexact, Double.isNegative_ofNat]
  simp only [Int.natAbs_natCast, Bool.false_eq_true, if_false]
  rw [if_neg (by omega)]

end Directive

theorem Template.parse_of_read? {word : Text} {d : Directive}
    (h : Directive.read? word = some (d, [])) :
    parse ('%' :: word) = [.directive d ('%' :: word)] := by
  have hread : Directive.read? (word ++ []) = some (d, []) := by rwa [List.append_nil]
  have hparse := parse_directive hread
  rwa [List.append_nil, parse_nil] at hparse

/-- A template that is one directive expands to the text of this directive. -/
theorem Template.format_directive {word : Text} {d : Directive}
    (h : Directive.read? word = some (d, [])) (m : Memory) (values : List Value) :
    format m ('%' :: word) values =
      Segment.text m { values := values } (.directive d ('%' :: word)) := by
  rw [format, parse_of_read? h, expand_cons]
  cases Segment.text m { values := values } (.directive d ('%' :: word)) with
  | error e => rfl
  | ok text => exact congrArg Except.ok (List.append_nil text)

namespace Layout

/-- The directive that asks for a layout. -/
def written (layout : Layout) : Directive where
  flags := layout.flags
  width := if layout.width = 0 then none else some (.literal layout.width)
  precision := layout.precision.map .literal
  conversion := layout.conversion

/-- The layout with the precision of its conversion in place of an absent one. -/
def settled (layout : Layout) : Layout :=
  { layout with precision := layout.precision.or layout.conversion.defaultPrecision }

/-- Width and precision are such as a directive may ask for. -/
structure InRange (layout : Layout) : Prop where
  width_le : layout.width ≤ countLimit
  precision_le : ∀ p ∈ layout.precision, p ≤ countLimit

variable {layout : Layout}

theorem InRange.printable_written (h : layout.InRange) : layout.written.Printable := by
  have hbound : countLimit < 2 ^ 64 := by decide
  refine ⟨by simp [written], ?_, ?_, ?_⟩
  · intro count hcount
    simp only [written, Option.mem_def, Option.ite_none_left_eq_some, Option.some.injEq] at hcount
    obtain ⟨-, rfl⟩ := hcount
    exact Nat.lt_of_le_of_lt h.width_le hbound
  · intro count hcount
    obtain ⟨p, hp, rfl⟩ := Option.map_eq_some_iff.mp hcount
    exact Nat.lt_of_le_of_lt (h.precision_le p hp) hbound
  · by_cases hzero : layout.width = 0 <;> simp [written, hzero]

theorem widthUses_written (layout : Layout) : layout.written.widthUses = 0 := by
  unfold Directive.widthUses written
  by_cases hzero : layout.width = 0 <;> simp [hzero, Count.uses]

theorem precisionUses_written (layout : Layout) : layout.written.precisionUses = 0 := by
  unfold Directive.precisionUses written
  cases layout.precision <;> rfl

theorem operands_written (layout : Layout) (args : Arguments) :
    layout.written.operands args =
      { width := if layout.width = 0 then none else some (.ofNat layout.width)
        precision := layout.precision.map .ofNat
        value := args.get args.cursor } := by
  have hwidth : layout.written.width.map (fun count => (args.count count).1) =
      if layout.width = 0 then none else some (.ofNat layout.width) := by
    simp only [written]
    split
    · rfl
    · rw [Option.map_some, Arguments.fst_count_literal]
  have hprecision : layout.written.precision.map (fun count => (args.count count).1) =
      layout.precision.map .ofNat := by
    unfold written
    cases layout.precision with
    | none => rfl
    | some n => simp only [Option.map_some, Arguments.fst_count_literal]
  have hvalue : (args.pick layout.written.position).1 = args.get args.cursor := rfl
  rw [Directive.operands, widthUses_written, precisionUses_written, Nat.add_zero,
    Arguments.skip_zero, hwidth, hprecision, hvalue]

theorem InRange.layout_written (h : layout.InRange) (raw : Text) (args : Arguments) :
    layout.written.layout raw (layout.written.operands args) = .ok layout.settled := by
  have hwidth : (if layout.width = 0 then none else some (Double.ofNat layout.width)).elim
      (.ok (0, false)) (Directive.checkWidth raw) = .ok (layout.width, false) := by
    by_cases hzero : layout.width = 0
    · rw [if_pos hzero, hzero]
      rfl
    · rw [if_neg hzero, Option.elim_some, Directive.checkWidth_ofNat raw h.width_le]
  have hprecision : (layout.precision.map Double.ofNat).elim
      (.ok layout.conversion.defaultPrecision)
      (Directive.checkPrecision raw layout.conversion) = .ok layout.settled.precision := by
    unfold settled
    cases hp : layout.precision with
    | none => rfl
    | some p =>
        rw [Option.map_some, Option.elim_some,
          Directive.checkPrecision_ofNat raw _ (h.precision_le p hp)]
        rfl
  rw [operands_written, Directive.layout_of_ok _ _ hwidth hprecision]
  simp [settled, written]

/-- However the directive of a layout is spelled, the template that is this directive renders its
argument in this layout. -/
theorem InRange.format_of_read? (h : layout.InRange) {word : Text}
    (hread : Directive.read? word = some (layout.written, [])) (m : Memory) (v : Value) :
    Template.format m ('%' :: word) [v] = .ok (layout.settled.render m v) := by
  have hvalue : (layout.written.operands { values := [v] }).value = v := by
    rw [operands_written]
    rfl
  rw [Template.format_directive hread, Segment.text, h.layout_written, hvalue]
  rfl

theorem InRange.overflows_of_read? (h : layout.InRange) {word : Text}
    (hread : Directive.read? word = some (layout.written, [])) (v : Value) :
    Template.overflows { values := [v] } (Template.parse ('%' :: word)) =
      layout.settled.overflows v := by
  rw [Template.parse_of_read? hread, Template.overflows, Directive.resolve_eq, h.layout_written]
  simp only [Except.map, widthUses_written, precisionUses_written, Template.overflows,
    Bool.or_false]
  rfl

theorem InRange.format_written (h : layout.InRange) (m : Memory) (v : Value) :
    Template.format m layout.written.spelling [v] = .ok (layout.settled.render m v) := by
  have hread := Directive.read?_form_append h.printable_written []
  rw [List.append_nil] at hread
  rw [← Directive.cons_text_form, h.format_of_read? hread]

theorem InRange.checkedFormat_written (h : layout.InRange) (m : Memory) (v : Value) :
    Template.checkedFormat m layout.written.spelling [v] =
      if layout.settled.overflows v then none else some (.ok (layout.settled.render m v)) := by
  have hread := Directive.read?_form_append h.printable_written []
  rw [List.append_nil] at hread
  rw [Template.checkedFormat, h.format_written, ← Directive.cons_text_form,
    h.overflows_of_read? hread]

end Layout

end CellMachine
