import CellMachine.Proofs.Written
/-!
# Counts taken from arguments

A width or a precision that is taken from an argument passes through a double; one that is written
in the template is read as digits.  Both come to the same integer as long as it is in range.  A
negative width asks for padding on the right, which a flag can say as well, and a negative precision
is none.  Main statement: a directive with two stars means what the directive with both numbers
written out means.
-/

namespace CellMachine

theorem Flags.ofText_of_mem_iff {run run' : Text} {minus : Bool}
    (h : ∀ c, c ∈ run' ↔ c ∈ run ∨ minus = true ∧ c = '-') :
    ofText run' = { ofText run with left := (ofText run).left || minus } := by
  have hother {c : Char} (hc : c ≠ '-') : run'.contains c = run.contains c := by
    rw [Bool.eq_iff_iff]
    simp [h, hc]
  have hminus : run'.contains '-' = (run.contains '-' || minus) := by
    rw [Bool.eq_iff_iff]
    simp [h]
  unfold ofText
  rw [hminus, hother (by decide), hother (by decide), hother (by decide), hother (by decide)]

-- This and the next are proved by rewriting, and used so: evaluation would compute the double.
theorem Value.toDouble_int (n : Int64) : (Value.int n).toDouble = .ofInt n.toInt := by
  rw [toDouble]

theorem Arguments.fst_count_next (args : Arguments) :
    (args.count .next).1 = (args.get args.cursor).toDouble := by
  rw [count, next]

namespace Directive

theorem checkWidth_ofInt (raw : Text) {n : Int} (h : n.natAbs ≤ countLimit) :
    checkWidth raw (.ofInt n) = .ok (n.natAbs, decide (n < 0)) := by
  have hexact : n.natAbs ≤ 2 ^ 53 := Nat.le_trans h (by decide)
  rw [checkWidth, Double.trunc?_ofInt hexact, Double.isNegative_ofInt]
  simp only
  rw [if_neg (by omega)]

theorem checkPrecision_of_isNegative (raw : Text) (conversion : Conversion) {x : Double}
    {whole : Int} (hwhole : x.trunc? = some whole) (hneg : x.isNegative = true) :
    checkPrecision raw conversion x = .ok conversion.defaultPrecision := by
  rw [checkPrecision, hwhole]
  simp only [hneg, if_true]

theorem checkPrecision_ofInt (raw : Text) (conversion : Conversion) {n : Int}
    (hlow : n.natAbs < 2 ^ 64) (h : n ≤ countLimit) :
    checkPrecision raw conversion (.ofInt n) =
      .ok (if n < 0 then conversion.defaultPrecision else some n.natAbs) := by
  by_cases hneg : n < 0
  · obtain ⟨whole, hwhole⟩ := Double.exists_trunc?_ofInt hlow
    have hsign : (Double.ofInt n).isNegative = true := by
      rw [Double.isNegative_ofInt, decide_eq_true hneg]
    rw [checkPrecision_of_isNegative raw conversion hwhole hsign, if_pos hneg]
  · have hlimit : n.natAbs ≤ countLimit := by omega
    have hexact : n.natAbs ≤ 2 ^ 53 := Nat.le_trans hlimit (by decide)
    rw [checkPrecision, Double.trunc?_ofInt hexact, Double.isNegative_ofInt]
    simp only [hneg, decide_false, Bool.false_eq_true, if_false]
    rw [if_neg (by omega)]

/-- The text of a directive behind its percent sign, with flags and a letter of one's choice. -/
def word (d : Directive) (flags : Text) (letter : Char) : Text :=
  d.position.elim [] (fun n => Numeral.digits 10 n ++ ['$']) ++ flags ++
    d.width.elim [] Count.spelling ++ d.precision.elim [] (fun p => '.' :: p.spelling) ++ [letter]

/-- A directive is read back whatever the order of its flags, and by each letter of its
conversion. -/
theorem read?_word {d : Directive} (h : d.Printable) {flags : Text} {letter : Char}
    (hflags : ∀ c ∈ flags, Flags.isFlag c) (hset : Flags.ofText flags = d.flags)
    (hletter : Conversion.ofLetter? letter = some d.conversion) :
    read? (d.word flags letter) = some (d, []) := by
  let form : DirectiveForm :=
    { d.form with
      flags := flags
      letter := letter
      mem_flags := fun c hc => mem_flagLetters_iff.mpr (hflags c hc)
      mem_letters := Conversion.mem_letters_iff.mpr hletter }
  have hdirective : form.directive = d := by
    have hcanonical : Flags.ofText d.form.flags = d.flags := d.flags.ofText_toText
    have hform := directive_form h
    rw [d.form.directive_eq, hcanonical] at hform
    have hgiven : Flags.ofText form.flags = d.flags := hset
    rw [form.directive_eq, hgiven]
    exact hform
  have htext : form.text = d.word flags letter := by
    rw [word, ← positionText_form, ← widthText_form, ← precisionText_form]
    exact congrArg (· ++ [letter]) (List.append_nil _)
  have hread := form.read?_append (zerosAreFlags_form h) []
  rwa [hdirective, List.append_nil, htext] at hread

/-- The directive that takes its width and its precision from the arguments in turn. -/
def starred (flags : Flags) (conversion : Conversion) : Directive where
  flags := flags
  width := some .next
  precision := some .next
  conversion := conversion

theorem printable_starred (flags : Flags) (conversion : Conversion) :
    (starred flags conversion).Printable := by
  refine ⟨by simp [starred], ?_, ?_, by simp [starred]⟩
  · intro count hcount
    cases hcount
    trivial
  · intro count hcount
    cases hcount
    trivial

theorem operands_starred (flags : Flags) (conversion : Conversion) (width precision : Int64)
    (v : Value) :
    (starred flags conversion).operands { values := [.int width, .int precision, v] } =
      { width := some (.ofInt width.toInt)
        precision := some (.ofInt precision.toInt)
        value := v } := by
  simp only [operands, starred, Option.map_some, Arguments.fst_count_next]
  rw [← Value.toDouble_int width, ← Value.toDouble_int precision]
  rfl

end Directive

namespace Layout

/-- The layout that two integers ask for. -/
def ofCounts (flags : Flags) (width precision : Int) (conversion : Conversion) : Layout where
  flags := { flags with left := flags.left || decide (width < 0) }
  width := width.natAbs
  precision := if precision < 0 then none else some precision.natAbs
  conversion := conversion

variable {flags : Flags} {width precision : Int} {conversion : Conversion}

theorem inRange_ofCounts (hwidth : width.natAbs ≤ countLimit)
    (hprecision : precision ≤ countLimit) :
    (ofCounts flags width precision conversion).InRange := by
  refine ⟨hwidth, ?_⟩
  intro p hp
  simp only [ofCounts, Option.mem_def, Option.ite_none_left_eq_some, Option.some.injEq] at hp
  omega

end Layout

theorem Directive.layout_starred (flags : Flags) (conversion : Conversion) (raw : Text)
    {width precision : Int} (v : Value) (hwidth : width.natAbs ≤ countLimit)
    (hlow : precision.natAbs < 2 ^ 64) (hprecision : precision ≤ countLimit) :
    (starred flags conversion).layout raw
        { width := some (.ofInt width), precision := some (.ofInt precision), value := v } =
      .ok (Layout.ofCounts flags width precision conversion).settled := by
  have hchecked : (some (Double.ofInt width)).elim (.ok (0, false)) (checkWidth raw) =
      .ok (width.natAbs, decide (width < 0)) := by
    rw [Option.elim_some, checkWidth_ofInt raw hwidth]
  have hconversion : (starred flags conversion).conversion = conversion := rfl
  have hchecked' : (some (Double.ofInt precision)).elim
      (.ok (starred flags conversion).conversion.defaultPrecision)
      (checkPrecision raw (starred flags conversion).conversion) =
        .ok (if precision < 0 then conversion.defaultPrecision else some precision.natAbs) := by
    rw [Option.elim_some, hconversion, checkPrecision_ofInt raw conversion hlow hprecision]
  rw [layout_of_ok _ ⟨some (.ofInt width), some (.ofInt precision), v⟩ hchecked hchecked']
  by_cases hneg : precision < 0 <;> simp [Layout.settled, Layout.ofCounts, hneg, starred]

namespace Template

variable {flags : Text} {letter : Char} {conversion : Conversion} {w p : Int64}

theorem format_starred (hflags : ∀ c ∈ flags, Flags.isFlag c)
    (hletter : Conversion.ofLetter? letter = some conversion)
    (hw : w.toInt.natAbs ≤ countLimit) (hp : p.toInt ≤ countLimit) (m : Memory) (v : Value) :
    format m ('%' :: (flags ++ ['*', '.', '*', letter])) [.int w, .int p, v] =
      .ok ((Layout.ofCounts (Flags.ofText flags) w.toInt p.toInt
        conversion).settled.render m v) := by
  -- A precision may be as low as an integer goes; its double is finite all the same.
  have hlow : p.toInt.natAbs < 2 ^ 64 := by
    have hleast := p.le_toInt
    have hgreatest := p.toInt_lt
    omega
  have hword : (Directive.starred (Flags.ofText flags) conversion).word flags letter =
      flags ++ ['*', '.', '*', letter] := by
    simp [Directive.word, Directive.starred, Count.spelling]
  have hread := Directive.read?_word
    (Directive.printable_starred (Flags.ofText flags) conversion) hflags rfl hletter
  rw [← hword, format_directive hread, Segment.text, Directive.operands_starred,
    Directive.layout_starred _ _ _ v hw hlow hp]
  rfl

theorem format_ofCounts {set : Flags} (hflags : ∀ c ∈ flags, Flags.isFlag c)
    (hset : Flags.ofText flags = (Layout.ofCounts set w.toInt p.toInt conversion).flags)
    (hletter : Conversion.ofLetter? letter = some conversion)
    (hw : w.toInt.natAbs ≤ countLimit) (hp : p.toInt ≤ countLimit) (m : Memory) (v : Value) :
    format m ('%' :: (flags ++ (if w.toInt = 0 then [] else Numeral.digits 10 w.toInt.natAbs) ++
        (if p.toInt < 0 then [] else '.' :: Numeral.digits 10 p.toInt.natAbs) ++ [letter])) [v] =
      .ok ((Layout.ofCounts set w.toInt p.toInt conversion).settled.render m v) := by
  have hrange := @Layout.inRange_ofCounts set _ _ conversion hw hp
  have hword : (Layout.ofCounts set w.toInt p.toInt conversion).written.word flags letter =
      flags ++ (if w.toInt = 0 then [] else Numeral.digits 10 w.toInt.natAbs) ++
        (if p.toInt < 0 then [] else '.' :: Numeral.digits 10 p.toInt.natAbs) ++ [letter] := by
    by_cases hzero : w.toInt = 0 <;> by_cases hneg : p.toInt < 0 <;>
      simp [Directive.word, Layout.written, Layout.ofCounts, Count.spelling, hzero, hneg]
  have hread := Directive.read?_word hrange.printable_written hflags hset hletter
  rw [← hword, hrange.format_of_read? hread]

/-- Let a directive take its width and its precision from arguments that are integers in range.  It
means the same to write out both: the magnitude of the width unless it is zero, with a minus among
the flags if it is negative, and the precision unless it is negative.  The flags may be in any
order. -/
theorem format_star_counts (flags flags' : Text) (letter : Char) (m : Memory) (w p : Int64)
    (v : Value) (hflags : ∀ c ∈ flags, Flags.isFlag c)
    (hflags' : ∀ c, c ∈ flags' ↔ c ∈ flags ∨ w.toInt < 0 ∧ c = '-')
    (hletter : (Conversion.ofLetter? letter).isSome)
    (hw : w.toInt.natAbs ≤ 2147483647) (hp : p.toInt ≤ 2147483647) :
    let width : Text := if w.toInt = 0 then [] else Numeral.digits 10 w.toInt.natAbs
    let precision : Text := if p.toInt < 0 then [] else '.' :: Numeral.digits 10 p.toInt.natAbs
    ∃ text,
      format m ('%' :: (flags ++ ['*', '.', '*', letter])) [.int w, .int p, v] = .ok text ∧
      format m ('%' :: (flags' ++ width ++ precision ++ [letter])) [v] = .ok text := by
  intro width precision
  obtain ⟨conversion, hconversion⟩ := Option.isSome_iff_exists.mp hletter
  have hisFlag : ∀ c ∈ flags', Flags.isFlag c := by
    intro c hc
    rcases (hflags' c).mp hc with hmem | ⟨-, rfl⟩
    · exact hflags c hmem
    · rfl
  have hset : Flags.ofText flags' =
      (Layout.ofCounts (Flags.ofText flags) w.toInt p.toInt conversion).flags :=
    Flags.ofText_of_mem_iff (by simpa using hflags')
  exact ⟨_, format_starred hflags hconversion hw hp m v,
    format_ofCounts hisFlag hset hconversion hw hp m v⟩

/-- A negative width sets a flag that overrides the zeros, and the least precision is none. -/
theorem format_star_counts_negative :
    let w : Int64 := -6
    let p : Int64 := Int64.minValue
    (∀ c ∈ ['0', '+'], Flags.isFlag c) ∧
      (∀ c, c ∈ ['+', '-', '0'] ↔ c ∈ ['0', '+'] ∨ w.toInt < 0 ∧ c = '-') ∧
      w.toInt.natAbs ≤ 2147483647 ∧ p.toInt ≤ 2147483647 ∧
      format {} "%0+*.*i".toList [.int w, .int p, .int 42] = .ok "+42   ".toList ∧
      format {} "%+-06i".toList [.int 42] = .ok "+42   ".toList := by
  intro w p
  have hflags : ∀ c ∈ ['0', '+'], Flags.isFlag c := by simp [Flags.isFlag]
  have hneg : w.toInt < 0 := by decide
  have hflags' : ∀ c, c ∈ ['+', '-', '0'] ↔ c ∈ ['0', '+'] ∨ w.toInt < 0 ∧ c = '-' := by
    intro c
    simp only [hneg, true_and, List.mem_cons, List.not_mem_nil, or_false]
    constructor
    · rintro (hplus | hminus | hzero)
      · exact .inl (.inr hplus)
      · exact .inr hminus
      · exact .inl (.inl hzero)
    · rintro ((hzero | hplus) | hminus)
      · exact .inr (.inr hzero)
      · exact .inl hplus
      · exact .inr (.inl hminus)
  have hw : w.toInt.natAbs ≤ 2147483647 := by decide
  have hp : p.toInt ≤ 2147483647 := by decide
  obtain ⟨text, hstar, hwritten⟩ := format_star_counts ['0', '+'] ['+', '-', '0'] 'i' {} w p
    (.int 42) hflags hflags' rfl hw hp
  have hword : '%' :: (['+', '-', '0'] ++ (if w.toInt = 0 then [] else
      Numeral.digits 10 w.toInt.natAbs) ++ (if p.toInt < 0 then [] else
      '.' :: Numeral.digits 10 p.toInt.natAbs) ++ ['i']) = "%+-06i".toList := by decide
  have htext : format {} "%+-06i".toList [.int 42] = .ok "+42   ".toList := by decide +kernel
  rw [hword, htext] at hwritten
  rw [← hwritten] at hstar
  exact ⟨hflags, hflags', hw, hp, hstar, htext⟩

end Template

end CellMachine
