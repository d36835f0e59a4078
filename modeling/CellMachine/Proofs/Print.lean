import CellMachine.Proofs.Scan
import CellMachine.Template.Expand
/-!
# Printing templates

Every directive has one canonical spelling: its parts in order, each number in decimal, and no
length letters.  It is a derivation of the grammar, so it reads back as the directive whatever text
follows.  Main statement: a printed list of segments is parsed into the same segments, and a text
whose percent signs are doubled is formatted as itself.
-/

namespace CellMachine

/-- The decimal digits of a number, as a run. -/
def DigitRun.ofNat (n : Nat) : DigitRun :=
  ⟨Numeral.digits 10 n, Numeral.digits_ne_nil n, fun _ hc => Numeral.isDigit_of_mem_digits hc⟩

theorem DigitRun.number_ofNat {n : Nat} (h : n < 2 ^ 64) : (ofNat n).number = n := by
  have hle : n ≤ 2 ^ 64 - 1 := by omega
  have hvalue : Nat.ofDigitChars 10 (ofNat n).run 0 = n := Nat.ofDigitChars_ten_toDigits
  rw [number, hvalue, Nat.min_eq_right hle]

namespace Flags

theorem mem_of_mem_toText (f : Flags) : ∀ c ∈ f.toText, c ∈ flagLetters := by
  intro c hc
  simp only [toText, List.mem_append, List.mem_ite_nil_right, List.mem_singleton] at hc
  rcases hc with (((⟨-, rfl⟩ | ⟨-, rfl⟩) | ⟨-, rfl⟩) | ⟨-, rfl⟩) | ⟨-, rfl⟩
  all_goals decide

theorem ofText_toText (f : Flags) : ofText f.toText = f := by
  obtain ⟨left, plus, space, zero, alternate⟩ := f
  simp [ofText, toText]

end Flags

namespace Count

def spelling : Count → Text
  | .literal n => Numeral.digits 10 n
  | .next => ['*']
  | .position n => '*' :: (Numeral.digits 10 n ++ ['$'])

/-- The number of a count, if it has one, is one that a template can hold. -/
def Bounded : Count → Prop
  | .literal n => n < 2 ^ 64
  | .next => True
  | .position n => n < 2 ^ 64

instance : (count : Count) → Decidable count.Bounded
  | .literal n => inferInstanceAs (Decidable (n < 2 ^ 64))
  | .next => inferInstanceAs (Decidable True)
  | .position n => inferInstanceAs (Decidable (n < 2 ^ 64))

def form : Count → CountForm
  | .literal n => .digits (.ofNat n)
  | .next => .star
  | .position n => .starAt (.ofNat n)

theorem text_form (count : Count) : count.form.text = count.spelling := by
  cases count <;> rfl

theorem count_form {count : Count} (h : count.Bounded) : count.form.count = count := by
  cases count with
  | literal n => exact congrArg Count.literal (DigitRun.number_ofNat h)
  | next => rfl
  | position n => exact congrArg Count.position (DigitRun.number_ofNat h)

end Count

namespace Directive

/-- The canonical spelling of a directive, with its percent sign. -/
def spelling (d : Directive) : Text :=
  '%' :: (d.position.elim [] (fun n => Numeral.digits 10 n ++ ['$']) ++ d.flags.toText ++
    d.width.elim [] Count.spelling ++ d.precision.elim [] (fun p => '.' :: p.spelling) ++
    [d.conversion.letter])

/-- All numbers are within bounds, and the width is not a written zero, which would be read as a
flag. -/
def Printable (d : Directive) : Prop :=
  (∀ n ∈ d.position, n < 2 ^ 64) ∧ (∀ count ∈ d.width, count.Bounded) ∧
    (∀ count ∈ d.precision, count.Bounded) ∧ d.width ≠ some (.literal 0)

instance (d : Directive) : Decidable d.Printable :=
  inferInstanceAs (Decidable (_ ∧ _ ∧ _ ∧ _))

def form (d : Directive) : DirectiveForm where
  position := d.position.map .ofNat
  flags := d.flags.toText
  width := d.width.map Count.form
  precision := d.precision.map Count.form
  lengths := []
  letter := d.conversion.letter
  conversion := d.conversion
  mem_flags := d.flags.mem_of_mem_toText
  mem_lengths := by simp
  mem_letters := Conversion.mem_letters_iff.mpr d.conversion.ofLetter?_letter

theorem positionText_form (d : Directive) :
    d.form.positionText = d.position.elim [] fun n => Numeral.digits 10 n ++ ['$'] := by
  unfold DirectiveForm.positionText form
  cases d.position <;> rfl

theorem widthText_form (d : Directive) :
    d.form.widthText = d.width.elim [] Count.spelling := by
  unfold DirectiveForm.widthText form
  cases d.width with
  | none => rfl
  | some count => exact count.text_form

theorem precisionText_form (d : Directive) :
    d.form.precisionText = d.precision.elim [] fun p => '.' :: p.spelling := by
  unfold DirectiveForm.precisionText form
  cases d.precision with
  | none => rfl
  | some count => exact congrArg _ count.text_form

theorem cons_text_form (d : Directive) : '%' :: d.form.text = d.spelling := by
  rw [DirectiveForm.text, positionText_form, widthText_form, precisionText_form]
  simp [form, spelling]

theorem directive_form {d : Directive} (h : d.Printable) : d.form.directive = d := by
  obtain ⟨hposition, hwidth, hprecision, -⟩ := h
  have hcount : ∀ count : Option Count, (∀ c ∈ count, c.Bounded) →
      (count.map Count.form).map CountForm.count = count := by
    intro count hbounded
    cases count with
    | none => rfl
    | some count => exact congrArg some (Count.count_form (hbounded count rfl))
  have hnumber : (d.position.map DigitRun.ofNat).map DigitRun.number = d.position := by
    cases hd : d.position with
    | none => rfl
    | some n => exact congrArg some (DigitRun.number_ofNat (hposition n hd))
  rw [DirectiveForm.directive_eq]
  simp only [form, hnumber, hcount _ hwidth, hcount _ hprecision, Flags.ofText_toText]

theorem zerosAreFlags_form {d : Directive} (h : d.Printable) : d.form.ZerosAreFlags := by
  obtain ⟨-, -, -, hzero⟩ := h
  intro n hn
  cases hwidth : d.width with
  | none => simp [form, hwidth] at hn
  | some count =>
      cases count with
      | literal k =>
          have hpos : 0 < k := by
            apply Nat.pos_of_ne_zero
            rintro rfl
            exact hzero hwidth
          simp only [form, hwidth, Option.map_some, Count.form, Option.some.injEq,
            CountForm.digits.injEq] at hn
          rw [← hn]
          exact Numeral.stops_zero_digits hpos
      | next => simp [form, hwidth, Count.form] at hn
      | position k => simp [form, hwidth, Count.form] at hn

/-- A canonical spelling reads back as its directive, whatever follows it. -/
theorem read?_form_append {d : Directive} (h : d.Printable) (rest : Text) :
    read? (d.form.text ++ rest) = some (d, rest) := by
  have hread := d.form.read?_append (zerosAreFlags_form h) rest
  rwa [directive_form h] at hread

end Directive

namespace Segment

/-- The text that a segment is written as. -/
def print : Segment → Text
  | .literal text => text
  | .percent => ['%', '%']
  | .directive d _ => d.spelling

/-- The segment, with the canonical spelling in place of the text that it was read from. -/
def respelled : Segment → Segment
  | .directive d _ => .directive d d.spelling
  | s => s

def Printable : Segment → Prop
  | .literal text => text ≠ [] ∧ '%' ∉ text
  | .percent => True
  | .directive d _ => d.Printable

instance : (s : Segment) → Decidable s.Printable
  | .literal text => inferInstanceAs (Decidable (text ≠ [] ∧ '%' ∉ text))
  | .percent => inferInstanceAs (Decidable True)
  | .directive d _ => inferInstanceAs (Decidable d.Printable)

@[simp] theorem isLiteral_respelled (s : Segment) : s.respelled.isLiteral = s.isLiteral := by
  cases s <;> rfl

end Segment

namespace Template

theorem scans_literal {text rest : Text} {segments : List Segment} (hne : text ≠ [])
    (hpercent : '%' ∉ text) (hnext : ∀ s ∈ segments.head?, s.isLiteral = false)
    (hrest : Scans rest segments) : Scans (text ++ rest) (.literal text :: segments) := by
  induction text with
  | nil => exact absurd rfl hne
  | cons c text ih =>
      have hc : c = '%' → LonePercent (text ++ rest) := by
        rintro rfl
        simp at hpercent
      cases text with
      | nil =>
          have hcons : consLiteral c segments = .literal [c] :: segments := by
            unfold consLiteral
            split
            · simp [Segment.isLiteral] at hnext
            · rfl
          rw [← hcons]
          exact .literal hc hrest
      | cons d text =>
          have hpercent' : '%' ∉ d :: text := fun hmem => hpercent (by simp [hmem])
          exact .literal hc (ih (by simp) hpercent')

/-- Each printed segment ends where the next one begins, so the scan finds them one by one. -/
theorem scans_print {segments : List Segment} (hprintable : ∀ s ∈ segments, s.Printable)
    (hseparated : Separated segments) :
    Scans (segments.flatMap Segment.print) (segments.map Segment.respelled) := by
  induction segments with
  | nil => exact .nil
  | cons s segments ih =>
      obtain ⟨hnext, hseparated⟩ := List.isChain_cons.mp hseparated
      have hs : s.Printable := hprintable s (by simp)
      have hrest := ih (fun t ht => hprintable t (by simp [ht])) hseparated
      rw [List.flatMap_cons, List.map_cons]
      cases s with
      | literal text =>
          apply scans_literal hs.1 hs.2 _ hrest
          intro t ht
          rw [List.head?_map] at ht
          obtain ⟨u, hu, rfl⟩ := Option.map_eq_some_iff.mp ht
          rw [Segment.isLiteral_respelled]
          simpa [Segment.isLiteral] using hnext u hu
      | percent => exact .percent hrest
      | directive d raw =>
          simp only [Segment.print, Segment.respelled]
          rw [← d.cons_text_form]
          exact .directive (Directive.read?_form_append hs _) hrest

/-! ## Texts with doubled percent signs -/

/-- The template that stands for a text: each percent sign is doubled. -/
def escape (text : Text) : Text := text.flatMap fun c => if c = '%' then ['%', '%'] else [c]

theorem expand_cons_of_ok {m : Memory} {args args' : Arguments} {s : Segment} {text : Text}
    (h : expandSegment m args s = .ok (text, args')) (segments : List Segment) :
    expand m args (s :: segments) = (expand m args' segments).map (text ++ ·) := by
  rw [expand, h]
  change (expand m args' segments >>= fun more => .ok (text ++ more)) = _
  cases expand m args' segments <;> rfl

theorem expand_consLiteral (m : Memory) (args : Arguments) (c : Char)
    (segments : List Segment) :
    expand m args (consLiteral c segments) = (expand m args segments).map (c :: ·) := by
  have hliteral : ∀ text more, expand m args (.literal text :: more) =
      (expand m args more).map (text ++ ·) := fun text => expand_cons_of_ok rfl
  unfold consLiteral
  split
  · next more =>
      rw [hliteral, hliteral]
      cases expand m args more <;> rfl
  · rw [hliteral]
    rfl

theorem expand_parse_escape (m : Memory) (args : Arguments) (text : Text) :
    expand m args (parse (escape text)) = .ok text := by
  induction text with
  | nil => rfl
  | cons c text ih =>
      have hescape : escape (c :: text) =
          (if c = '%' then ['%', '%'] else [c]) ++ escape text := by
        simp [escape]
      rw [hescape]
      by_cases hc : c = '%'
      · rw [if_pos hc, List.cons_append, List.cons_append, List.nil_append, parse_percent,
          expand_cons_of_ok rfl, ih, hc]
        rfl
      · rw [if_neg hc, List.cons_append, List.nil_append, parse_plain hc, expand_consLiteral, ih]
        rfl

/-- Parsing undoes printing, for segments in which no literal holds a percent sign or touches
another.  So a text with its percent signs doubled comes out as it was. -/
theorem parse_print_and_format_escape :
    (∀ segments : List Segment, (∀ s ∈ segments, s.Printable) →
      segments.IsChain (fun s t => ¬(s.isLiteral ∧ t.isLiteral)) →
      parse (segments.flatMap Segment.print) = segments.map Segment.respelled) ∧
    (∀ (m : Memory) (text : Text) (values : List Value),
      format m (escape text) values = .ok text) := by
  constructor
  · intro segments hprintable hseparated
    exact (scans_print hprintable hseparated).parse_eq
  · intro m text values
    exact expand_parse_escape m _ text

/-- The text behind `%3$-010.*0$X` begins with a dollar sign, and four percent signs stand in front
of `%*s`. -/
theorem parse_print_and_format_escape_mixed :
    let hex : Directive :=
      { position := some 3, flags := { left := true, zero := true }, width := some (.literal 10)
        precision := some (.position 0), conversion := .hex true }
    let str : Directive := { width := some .next, conversion := .str }
    let segments : List Segment :=
      [.directive hex [], .literal ['$', 'd'], .percent, .percent, .directive str []]
    (∀ s ∈ segments, s.Printable) ∧
      segments.IsChain (fun s t => ¬(s.isLiteral ∧ t.isLiteral)) ∧
      parse (segments.flatMap Segment.print) =
        [.directive hex ['%', '3', '$', '-', '0', '1', '0', '.', '*', '0', '$', 'X'],
          .literal ['$', 'd'], .percent, .percent, .directive str ['%', '*', 's']] := by
  intro hex str segments
  have hprintable : ∀ s ∈ segments, s.Printable := by decide
  have hseparated : segments.IsChain (fun s t => ¬(s.isLiteral ∧ t.isLiteral)) := by decide
  exact ⟨hprintable, hseparated, parse_print_and_format_escape.1 segments hprintable hseparated⟩

end Template

end CellMachine
