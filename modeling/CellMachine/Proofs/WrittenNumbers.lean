import CellMachine.Proofs.Scan
import CellMachine.Proofs.Written
/-!
# Numbers written in a template

A number in a template has any number of digits.  It is read with saturation, and a width or a
precision then becomes a double before it is compared with its bound.  Neither step moves a number
across the bound, nor changes one below it.  Main statement: a directive takes the numbers written
in it for what they denote, however long they are.
-/

namespace CellMachine

namespace DigitRun

/-- The number that the digits denote. -/
def value (n : DigitRun) : Nat := Numeral.value n.run

theorem number_eq_min (n : DigitRun) : n.number = min (2 ^ 64 - 1) n.value := rfl

/-- Of a written count, saturation and rounding leave a number on the same side of the bound, and
the same number if it is in range. -/
theorem exists_trunc?_ofNat_number (n : DigitRun) :
    ∃ k : Nat, (Double.ofNat n.number).trunc? = some (k : Int) ∧
      (countLimit < k ↔ countLimit < n.value) ∧ (n.value ≤ countLimit → k = n.value) := by
  have hlimit : countLimit = 2147483647 := rfl
  have hnumber := n.number_eq_min
  by_cases hlarge : countLimit < n.value
  · obtain ⟨k, htrunc, hbound⟩ := Double.exists_trunc?_ofNat (show n.number < 2 ^ 64 by omega)
    have hk : countLimit < k := (hbound countLimit (by decide)).mpr (by omega)
    exact ⟨k, htrunc, iff_of_true hk hlarge, fun hle => absurd hlarge (Nat.not_lt.mpr hle)⟩
  · have heq : n.number = n.value := by omega
    rw [heq]
    exact ⟨n.value, Double.trunc?_ofNat (by omega), Iff.rfl, fun _ => rfl⟩

end DigitRun

/-- A position beyond the values stays beyond them when it is saturated. -/
theorem Arguments.atPosition_number (args : Arguments) (n : DigitRun)
    (h : args.values.length < 2 ^ 64 - 1) :
    args.atPosition n.number =
      if 1 ≤ n.value then args.values[n.value - 1]?.getD .undefined else .undefined := by
  have hnumber := n.number_eq_min
  by_cases hsmall : n.value ≤ args.values.length
  · have heq : n.number = n.value := by omega
    rw [heq]
    cases n.value with
    | zero => rfl
    | succ index => rfl
  · obtain ⟨index, hindex⟩ := Nat.exists_eq_add_of_lt (show 0 < n.number by omega)
    have hbeyond : args.values.length ≤ 0 + index := by omega
    rw [if_pos (by omega), List.getElem?_eq_none (by omega), hindex, atPosition, get,
      List.getElem?_eq_none hbeyond]

namespace Directive

variable {d : Directive} {n : DigitRun}

-- The source is left open here: of a literal the double itself would be computed.
theorem resolveWidth_of_trunc? {source : Count} {args : Arguments} {k : Nat}
    (h : d.width = some source) (htrunc : (args.count source).1.trunc? = some (k : Int))
    (hsign : (args.count source).1.isNegative = false) (raw : Text) :
    d.resolveWidth raw args =
      if countLimit < k then .error (.widthOverflow raw)
      else .ok ((k, false), args.skip source.uses) := by
  rw [resolveWidth, h]
  simp only [htrunc, hsign, Int.natAbs_natCast, Arguments.snd_count]

theorem resolvePrecision_of_trunc? {source : Count} {args : Arguments} {k : Nat}
    (h : d.precision = some source) (htrunc : (args.count source).1.trunc? = some (k : Int))
    (hsign : (args.count source).1.isNegative = false) (raw : Text) :
    d.resolvePrecision raw args =
      if countLimit < k then .error (.precisionOverflow raw)
      else .ok (some k, args.skip source.uses) := by
  rw [resolvePrecision, h]
  simp only [htrunc, hsign, Bool.false_eq_true, if_false, Int.natAbs_natCast, Arguments.snd_count]

theorem resolveWidth_number (h : d.width = some (.literal n.number)) (raw : Text)
    (args : Arguments) :
    d.resolveWidth raw args =
      if countLimit < n.value then .error (.widthOverflow raw)
      else .ok ((n.value, false), args) := by
  obtain ⟨k, htrunc, hlarge, hsmall⟩ := n.exists_trunc?_ofNat_number
  have hsign := Double.isNegative_ofNat n.number
  rw [← args.fst_count_literal] at htrunc hsign
  rw [resolveWidth_of_trunc? h htrunc hsign]
  by_cases hlimit : countLimit < n.value
  · rw [if_pos hlimit, if_pos (hlarge.mpr hlimit)]
  · rw [if_neg hlimit, if_neg (mt hlarge.mp hlimit), hsmall (Nat.le_of_not_lt hlimit)]
    rfl

theorem resolvePrecision_number (h : d.precision = some (.literal n.number)) (raw : Text)
    (args : Arguments) :
    d.resolvePrecision raw args =
      if countLimit < n.value then .error (.precisionOverflow raw)
      else .ok (some n.value, args) := by
  obtain ⟨k, htrunc, hlarge, hsmall⟩ := n.exists_trunc?_ofNat_number
  have hsign := Double.isNegative_ofNat n.number
  rw [← args.fst_count_literal] at htrunc hsign
  rw [resolvePrecision_of_trunc? h htrunc hsign]
  by_cases hlimit : countLimit < n.value
  · rw [if_pos hlimit, if_pos (hlarge.mpr hlimit)]
  · rw [if_neg hlimit, if_neg (mt hlarge.mp hlimit), hsmall (Nat.le_of_not_lt hlimit)]
    rfl

theorem resolvePrecision_ne_widthOverflow (d : Directive) (raw : Text) (args : Arguments) :
    d.resolvePrecision raw args ≠ .error (.widthOverflow raw) := by
  unfold resolvePrecision
  split
  · nofun
  · simp only
    split
    · nofun
    · split
      · nofun
      · split <;> nofun

end Directive

namespace Template

open Directive

section Segment

variable {d : Directive} {raw : Text} {args : Arguments}

theorem expandSegment_of_width_error {e : FormatError} (h : d.resolveWidth raw args = .error e)
    (m : Memory) : expandSegment m args (.directive d raw) = .error e := by
  rw [expandSegment, resolve, h]
  rfl

theorem expandSegment_of_width {width : Nat × Bool} {rest : Arguments}
    (h : d.resolveWidth raw args = .ok (width, rest)) (m : Memory) :
    expandSegment m args (.directive d raw) = (d.resolvePrecision raw rest).map fun found =>
      (Layout.render ⟨{ d.flags with left := d.flags.left || width.2 }, width.1, found.1,
        d.conversion⟩ m (found.2.pick d.position).1, (found.2.pick d.position).2) := by
  have hresolve : d.resolve raw args = d.resolvePrecision raw rest >>= fun found =>
      .ok (⟨{ d.flags with left := d.flags.left || width.2 }, width.1, found.1, d.conversion⟩,
        found.2) := by
    rw [resolve, h]
    rfl
  rw [expandSegment, hresolve]
  cases d.resolvePrecision raw rest <;> rfl

theorem expandSegment_of_position {k : Nat} (h : d.position = some k) (m : Memory) :
    expandSegment m args (.directive d raw) = (d.resolve raw args).map fun found =>
      (found.1.render m (args.atPosition k), found.2) := by
  have hskip : ∀ n, (args.skip n).atPosition k = args.atPosition k := by
    intro n
    cases k <;> rfl
  rw [expandSegment, h, resolve_eq]
  cases d.layout raw (d.operands args) with
  | error e => rfl
  | ok layout => exact congrArg (fun v => Except.ok (layout.render m v, _)) (hskip _)

theorem outcome_of_written_width {n : DigitRun} (h : d.width = some (.literal n.number))
    (m : Memory) (raw : Text) (args : Arguments) :
    (expandSegment m args (.directive d raw) = .error (.widthOverflow raw) ↔
      countLimit < n.value) ∧
    (n.value ≤ countLimit →
      expandSegment m args (.directive d raw) = (d.resolvePrecision raw args).map fun found =>
        (Layout.render ⟨d.flags, n.value, found.1, d.conversion⟩ m (found.2.pick d.position).1,
          (found.2.pick d.position).2)) := by
  have hwidth := resolveWidth_number h raw args
  by_cases hlarge : countLimit < n.value
  · rw [if_pos hlarge] at hwidth
    exact ⟨iff_of_true (expandSegment_of_width_error hwidth m) hlarge,
      fun hle => absurd hlarge (Nat.not_lt.mpr hle)⟩
  · rw [if_neg hlarge] at hwidth
    have houtcome := expandSegment_of_width hwidth m
    simp only [Bool.or_false] at houtcome
    refine ⟨iff_of_false ?_ hlarge, fun _ => houtcome⟩
    rw [houtcome]
    intro herror
    cases hprecision : d.resolvePrecision raw args with
    | ok found =>
        rw [hprecision] at herror
        cases herror
    | error e =>
        rw [hprecision] at herror
        cases herror
        exact resolvePrecision_ne_widthOverflow d raw args hprecision

theorem outcome_of_written_precision {n : DigitRun} (h : d.precision = some (.literal n.number))
    {width : Nat × Bool} {rest : Arguments} (hwidth : d.resolveWidth raw args = .ok (width, rest))
    (m : Memory) :
    (expandSegment m args (.directive d raw) = .error (.precisionOverflow raw) ↔
      countLimit < n.value) ∧
    (n.value ≤ countLimit → expandSegment m args (.directive d raw) =
      .ok (Layout.render ⟨{ d.flags with left := d.flags.left || width.2 }, width.1,
        some n.value, d.conversion⟩ m (rest.pick d.position).1, (rest.pick d.position).2)) := by
  rw [expandSegment_of_width hwidth m, resolvePrecision_number h raw rest]
  by_cases hlarge : countLimit < n.value
  · rw [if_pos hlarge]
    exact ⟨iff_of_true rfl hlarge, fun hle => absurd hlarge (Nat.not_lt.mpr hle)⟩
  · rw [if_neg hlarge]
    exact ⟨iff_of_false nofun hlarge, fun _ => rfl⟩

theorem outcome_of_written_position {n : DigitRun} (h : d.position = some n.number)
    (hlength : args.values.length < 2 ^ 64 - 1) (m : Memory) :
    ∃ v : Value,
      (1 ≤ n.value ∧ n.value ≤ args.values.length → args.values[n.value - 1]? = some v) ∧
      (¬(1 ≤ n.value ∧ n.value ≤ args.values.length) → v = .undefined) ∧
      expandSegment m args (.directive d raw) =
        (d.resolve raw args).map fun found => (found.1.render m v, found.2) := by
  refine ⟨args.atPosition n.number, ?_, ?_, expandSegment_of_position h m⟩
  · rintro ⟨hpos, hle⟩
    have hlt : n.value - 1 < args.values.length := by omega
    rw [args.atPosition_number n hlength, if_pos hpos, List.getElem?_eq_getElem hlt,
      Option.getD_some]
  · intro houtside
    rw [args.atPosition_number n hlength]
    by_cases hpos : 1 ≤ n.value
    · have hbeyond : args.values.length ≤ n.value - 1 := by omega
      rw [if_pos hpos, List.getElem?_eq_none hbeyond, Option.getD_none]
    · rw [if_neg hpos]

theorem format_directive_append {form : DirectiveForm} (h : form.ZerosAreFlags) (m : Memory)
    (rest : Text) (values : List Value) :
    format m ('%' :: (form.text ++ rest)) values =
      expandSegment m { values := values } (.directive form.directive ('%' :: form.text)) >>=
        fun found => (expand m found.2 (parse rest)).map (found.1 ++ ·) := by
  rw [format, parse_directive (form.read?_append h rest), expand]
  rfl

end Segment

/-- A directive stands anywhere in a template, and its numbers have any number of digits.  Its width
is out of range iff the number that the digits denote is, and else the value is rendered with that
width.  The same holds of the precision, unless the directive fails for its width.  A position finds
the value at that place, counted from one, and is undefined if there is none; for this, memory
bounds how many values there are. -/
theorem directive_takes_written_numbers (m : Memory) (form : DirectiveForm) (args : Arguments)
    (hzeros : form.ZerosAreFlags) :
    let raw : Text := '%' :: form.text
    let d : Directive := form.directive
    let outcome : Except FormatError (Text × Arguments) := expandSegment m args (.directive d raw)
    (∀ (rest : Text) (values : List Value), format m (raw ++ rest) values =
      expandSegment m { values := values } (.directive d raw) >>= fun found =>
        (expand m found.2 (parse rest)).map (found.1 ++ ·)) ∧
    (∀ n : DigitRun, form.width = some (.digits n) →
      (outcome = .error (.widthOverflow raw) ↔ 2147483647 < n.value) ∧
      (n.value ≤ 2147483647 → outcome = (d.resolvePrecision raw args).map fun found =>
        (Layout.render ⟨d.flags, n.value, found.1, d.conversion⟩ m (found.2.pick d.position).1,
          (found.2.pick d.position).2))) ∧
    (∀ n : DigitRun, form.precision = some (.digits n) →
      (∀ e, d.resolveWidth raw args = .error e → outcome = .error e) ∧
      ∀ width rest, d.resolveWidth raw args = .ok (width, rest) →
        (outcome = .error (.precisionOverflow raw) ↔ 2147483647 < n.value) ∧
        (n.value ≤ 2147483647 → outcome =
          .ok (Layout.render ⟨{ d.flags with left := d.flags.left || width.2 }, width.1,
            some n.value, d.conversion⟩ m (rest.pick d.position).1, (rest.pick d.position).2))) ∧
    (args.values.length < 2 ^ 64 - 1 → ∀ n : DigitRun, form.position = some n → ∃ v : Value,
      (1 ≤ n.value ∧ n.value ≤ args.values.length → args.values[n.value - 1]? = some v) ∧
      (¬(1 ≤ n.value ∧ n.value ≤ args.values.length) → v = .undefined) ∧
      outcome = (d.resolve raw args).map fun found => (found.1.render m v, found.2)) := by
  intro raw d outcome
  refine ⟨format_directive_append hzeros m, ?_, ?_, ?_⟩
  · intro n hn
    exact outcome_of_written_width (congrArg (Option.map CountForm.count) hn) m raw args
  · intro n hn
    refine ⟨fun e he => expandSegment_of_width_error he m, ?_⟩
    intro width rest hwidth
    exact outcome_of_written_precision (congrArg (Option.map CountForm.count) hn) hwidth m
  · intro hlength n hn
    exact outcome_of_written_position (congrArg (Option.map DigitRun.number) hn) hlength m

/-- A width of `2 ^ 128`; then a position of `2 ^ 64 + 1`, which must not come to the first value,
with a precision of thirty digits. -/
theorem directive_takes_written_numbers_long :
    let wide : DirectiveForm :=
      ⟨none, ['-'], some (.digits (.ofNat (2 ^ 128))), none, [], 'x', .hex false,
        by simp [flagLetters], by simp, by decide⟩
    let zeros : DigitRun :=
      ⟨"000000000000000000000000000003".toList, by decide, List.all_eq_true.mp (by decide)⟩
    let distant : DirectiveForm :=
      ⟨some (.ofNat (2 ^ 64 + 1)), [], some (.digits (.ofNat 12)), some (.digits zeros), ['l'], 'd',
        .decimal, by simp, by simp [lengthLetters], by decide⟩
    let args : Arguments := { values := [.int 5] }
    wide.ZerosAreFlags ∧ distant.ZerosAreFlags ∧
      expandSegment {} args (.directive wide.directive ('%' :: wide.text)) =
        .error (.widthOverflow ('%' :: wide.text)) ∧
      expandSegment {} args (.directive distant.directive ('%' :: distant.text)) =
        .ok ("         000".toList, args) ∧
      args.values.length < 2 ^ 64 - 1 ∧
      expandSegment {} args (.directive distant.directive ('%' :: distant.text)) =
        (distant.directive.resolve ('%' :: distant.text) args).map fun found =>
          (found.1.render {} .undefined, found.2) := by
  intro wide zeros distant args
  have hwide : wide.ZerosAreFlags := by
    rintro n hn
    cases hn
    exact Numeral.stops_zero_digits (show 0 < 2 ^ 128 by decide)
  have hdistant : distant.ZerosAreFlags := by
    rintro n hn
    cases hn
    exact Numeral.stops_zero_digits (show 0 < 12 by decide)
  have hlength : args.values.length < 2 ^ 64 - 1 := by decide
  obtain ⟨-, hwidth, -, -⟩ := directive_takes_written_numbers {} wide args hwide
  obtain ⟨-, -, hprecision, hposition⟩ := directive_takes_written_numbers {} distant args hdistant
  have htwelve : distant.directive.resolveWidth ('%' :: distant.text) args =
      .ok ((12, false), args) :=
    (resolveWidth_number rfl ('%' :: distant.text) args).trans (if_neg (by decide))
  obtain ⟨-, hthree⟩ := (hprecision _ rfl).2 _ _ htwelve
  obtain ⟨v, -, hundefined, hvalue⟩ := hposition hlength _ rfl
  rw [hundefined (by decide)] at hvalue
  refine ⟨hwide, hdistant, (hwidth _ rfl).1.mpr (by decide), ?_, hlength, hvalue⟩
  exact (hthree (by decide)).trans (by decide +kernel)

end Template

end CellMachine
