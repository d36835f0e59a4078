import CellMachine.Proofs.Run
import CellMachine.Template.Parser
import Mathlib.Data.List.TakeWhile
/-!
# The grammar of directives

A derivation of a directive is a tree, `DirectiveForm`, that says which characters of the directive
belong to which part.  The grammar leaves one choice open: zeros in front of a width may be flags
or digits of the width.  The reader takes each part as long as it can, never goes back, and looks
one character ahead for a dollar sign.  Main statement: the reader finds the derivation in which
those zeros are flags, and it misses no text that has a derivation at all.

Only characters below 128 occur in the grammar, so all of this holds of bytes, taken as the
characters with their codes, as well as of text.
-/

namespace CellMachine

/-- A run of digits that is not empty. -/
structure DigitRun where
  run : Text
  run_ne_nil : run ≠ []
  isDigit : ∀ c ∈ run, c.isDigit

/-- The number that a template takes a run of digits for. -/
def DigitRun.number (n : DigitRun) : Nat := min (2 ^ 64 - 1) (Nat.ofDigitChars 10 n.run 0)

/-- The ways to write a width or a precision. -/
inductive CountForm where
  | digits (n : DigitRun)
  | star
  | starAt (n : DigitRun)

namespace CountForm

def text : CountForm → Text
  | .digits n => n.run
  | .star => ['*']
  | .starAt n => '*' :: (n.run ++ ['$'])

def count : CountForm → Count
  | .digits n => .literal n.number
  | .star => .next
  | .starAt n => .position n.number

end CountForm

def flagLetters : List Char := ['-', '+', ' ', '0', '#']

def lengthLetters : List Char := ['h', 'l', 'L', 'q', 'j', 'z', 't']

/-- The letters that name a conversion; only decimal numbers have two. -/
def Conversion.letters : Conversion → List Char
  | .decimal => ['d', 'i']
  | conversion => [conversion.letter]

/-- The characters of a directive behind its percent sign, part by part. -/
structure DirectiveForm where
  position : Option DigitRun
  flags : Text
  width : Option CountForm
  precision : Option CountForm
  lengths : Text
  letter : Char
  conversion : Conversion
  mem_flags : ∀ c ∈ flags, c ∈ flagLetters
  mem_lengths : ∀ c ∈ lengths, c ∈ lengthLetters
  mem_letters : letter ∈ conversion.letters

namespace DirectiveForm

def positionText (f : DirectiveForm) : Text := f.position.elim [] fun n => n.run ++ ['$']

def widthText (f : DirectiveForm) : Text := f.width.elim [] CountForm.text

def precisionText (f : DirectiveForm) : Text := f.precision.elim [] fun p => '.' :: p.text

def text (f : DirectiveForm) : Text :=
  f.positionText ++ f.flags ++ f.widthText ++ f.precisionText ++ f.lengths ++ [f.letter]

def directive (f : DirectiveForm) : Directive where
  position := f.position.map DigitRun.number
  flags := ⟨'-' ∈ f.flags, '+' ∈ f.flags, ' ' ∈ f.flags, '0' ∈ f.flags, '#' ∈ f.flags⟩
  width := f.width.map CountForm.count
  precision := f.precision.map CountForm.count
  conversion := f.conversion

/-- No zero stands in front of the width: all of them are flags. -/
def ZerosAreFlags (f : DirectiveForm) : Prop :=
  ∀ n, f.width = some (.digits n) → Text.Stops (· == '0') n.run

end DirectiveForm

/-! ## Numbers and counts -/

open Text (Stops)

theorem DigitRun.exists_cons (n : DigitRun) :
    ∃ c rest, n.run = c :: rest ∧ c.isDigit := by
  cases hrun : n.run with
  | nil => exact absurd hrun n.run_ne_nil
  | cons c rest => exact ⟨c, rest, rfl, n.isDigit c (by simp [hrun])⟩

theorem DigitRun.saturated_run (n : DigitRun) :
    Numeral.saturated numberLimit n.run = n.number := by
  rw [Numeral.saturated_eq_min, Numeral.value_eq_ofDigitChars, number, numberLimit]

theorem readNumber?_run_append (n : DigitRun) {rest : Text} (h : Stops Char.isDigit rest) :
    readNumber? (n.run ++ rest) = some (n.number, rest) := by
  unfold readNumber?
  rw [Text.takeWhile_run_append n.isDigit h, Text.dropWhile_run_append n.isDigit h]
  simp only [n.run_ne_nil, if_false, n.saturated_run]

theorem readNumber?_eq_none {text : Text} (h : Stops Char.isDigit text) :
    readNumber? text = none := by
  unfold readNumber?
  rw [Text.takeWhile_eq_nil h]
  rfl

theorem exists_run_of_readNumber? {text rest : Text} {value : Nat}
    (h : readNumber? text = some (value, rest)) :
    ∃ n : DigitRun, text = n.run ++ rest ∧ n.number = value ∧
      rest = text.dropWhile Char.isDigit := by
  unfold readNumber? at h
  by_cases hrun : text.takeWhile Char.isDigit = []
  · simp [hrun] at h
  · simp only [hrun, if_false, Option.some.injEq, Prod.mk.injEq] at h
    obtain ⟨hvalue, rfl⟩ := h
    let n : DigitRun := ⟨_, hrun, fun c hc => List.mem_takeWhile_imp hc⟩
    refine ⟨n, List.takeWhile_append_dropWhile.symm, ?_, rfl⟩
    rw [← hvalue, n.saturated_run]

namespace Count

theorem read?_of_ne_star {text : Text} (h : Stops (· == '*') text) :
    read? text = (readNumber? text).map fun found => (.literal found.1, found.2) := by
  unfold read?
  split
  · simp at h
  · rfl

theorem read?_form_append (f : CountForm) {rest : Text} (h : Stops Char.isDigit rest) :
    read? (f.text ++ rest) = some (f.count, rest) := by
  cases f with
  | digits n =>
      obtain ⟨c, more, hrun, hdigit⟩ := n.exists_cons
      have hstar : Stops (· == '*') (n.run ++ rest) := by
        rw [hrun, List.cons_append, Text.stops_cons, beq_eq_false_iff_ne]
        rintro rfl
        simp at hdigit
      simp only [CountForm.text, CountForm.count]
      rw [read?_of_ne_star hstar, readNumber?_run_append n h]
      rfl
  | star =>
      simp only [CountForm.text, CountForm.count, List.cons_append, List.nil_append, read?]
      rw [readNumber?_eq_none h]
  | starAt n =>
      have hdollar : Stops Char.isDigit ('$' :: rest) := by simp
      have hnumber := readNumber?_run_append n hdollar
      simp only [CountForm.text, CountForm.count, List.cons_append, List.append_assoc,
        List.nil_append, read?]
      rw [hnumber]
      rfl

theorem exists_form_of_read? {text rest : Text} {count : Count}
    (h : read? text = some (count, rest)) :
    ∃ f : CountForm, text = f.text ++ rest ∧ f.count = count := by
  unfold read? at h
  split at h
  · split at h
    · next hnumber =>
        obtain ⟨n, htext, hvalue, -⟩ := exists_run_of_readNumber? hnumber
        simp only [Option.some.injEq, Prod.mk.injEq] at h
        obtain ⟨rfl, rfl⟩ := h
        exact ⟨.starAt n, by simp [CountForm.text, htext], by simp [CountForm.count, hvalue]⟩
    · simp only [Option.some.injEq, Prod.mk.injEq] at h
      obtain ⟨rfl, rfl⟩ := h
      exact ⟨.star, rfl, rfl⟩
  · simp only [Option.map_eq_some_iff, Prod.mk.injEq] at h
    obtain ⟨⟨value, behind⟩, hnumber, rfl, rfl⟩ := h
    obtain ⟨n, htext, hvalue, -⟩ := exists_run_of_readNumber? hnumber
    exact ⟨.digits n, htext, by simp [CountForm.count, hvalue]⟩

end Count

/-! ## Classes of letters -/

theorem mem_flagLetters_iff {c : Char} : c ∈ flagLetters ↔ Flags.isFlag c := by
  simp [flagLetters, Flags.isFlag, or_assoc]

theorem mem_lengthLetters_iff {c : Char} : c ∈ lengthLetters ↔ Directive.isLength c := by
  simp [lengthLetters, Directive.isLength, or_assoc]

namespace Conversion

/-- All letters that name a conversion. -/
def allLetters : List Char :=
  ['s', 'c', 'b', 'o', 'x', 'X', 'u', 'd', 'i', 'e', 'E', 'f', 'F', 'g', 'G']

private theorem letters_of_ofLetter? {c : Char} {conversion : Conversion}
    (h : ofLetter? c = some conversion) : c ∈ conversion.letters ∧ c ∈ allLetters := by
  unfold ofLetter? at h
  split at h <;> cases h
  all_goals decide

theorem mem_letters_iff {c : Char} {conversion : Conversion} :
    c ∈ conversion.letters ↔ ofLetter? c = some conversion := by
  constructor
  · intro h
    unfold letters at h
    split at h
    · simp only [List.mem_cons, List.not_mem_nil, or_false] at h
      rcases h with rfl | rfl
      · rfl
      · rfl
    · rw [List.mem_singleton.mp h, ofLetter?_letter]
  · intro h
    exact (letters_of_ofLetter? h).1

theorem mem_allLetters {c : Char} {conversion : Conversion} (h : c ∈ conversion.letters) :
    c ∈ allLetters :=
  (letters_of_ofLetter? (mem_letters_iff.mp h)).2

end Conversion

/-! ## The parts of a directive -/

namespace DirectiveForm

theorem directive_eq (f : DirectiveForm) :
    f.directive =
      { position := f.position.map DigitRun.number
        flags := Flags.ofText f.flags
        width := f.width.map CountForm.count
        precision := f.precision.map CountForm.count
        conversion := f.conversion } := by
  simp [directive, Flags.ofText]

theorem isLength_of_mem_lengths (f : DirectiveForm) :
    ∀ c ∈ f.lengths, Directive.isLength c := by
  intro c hc
  exact mem_lengthLetters_iff.mp (f.mem_lengths c hc)

theorem isFlag_of_mem_flags (f : DirectiveForm) : ∀ c ∈ f.flags, Flags.isFlag c := by
  intro c hc
  exact mem_flagLetters_iff.mp (f.mem_flags c hc)

theorem letter_class (f : DirectiveForm) {p : Char → Bool}
    (hp : Conversion.allLetters.all (!p ·)) : p f.letter = false := by
  rw [List.all_eq_true] at hp
  simpa using hp f.letter (Conversion.mem_allLetters f.mem_letters)

theorem stops_tail (f : DirectiveForm) (rest : Text) {p : Char → Bool}
    (hp : (lengthLetters ++ Conversion.allLetters).all (!p ·)) :
    Stops p (f.lengths ++ f.letter :: rest) := by
  rw [List.all_append, Bool.and_eq_true] at hp
  apply Text.stops_append_cons
  · intro c hc
    simpa using List.all_eq_true.mp hp.1 c (f.mem_lengths c hc)
  · exact f.letter_class hp.2

theorem stops_ending (f : DirectiveForm) (rest : Text) {p : Char → Bool}
    (hpoint : p '.' = false) (hp : (lengthLetters ++ Conversion.allLetters).all (!p ·)) :
    Stops p (f.precisionText ++ (f.lengths ++ f.letter :: rest)) := by
  unfold precisionText
  cases f.precision with
  | none => exact f.stops_tail rest hp
  | some count => simpa using hpoint

theorem readConversion?_append (f : DirectiveForm) (rest : Text) :
    Directive.readConversion? (f.lengths ++ f.letter :: rest) = some (f.conversion, rest) := by
  have hletter : Directive.isLength f.letter = false := f.letter_class (by decide)
  have hconversion := Conversion.mem_letters_iff.mp f.mem_letters
  unfold Directive.readConversion?
  rw [Text.dropWhile_run_append f.isLength_of_mem_lengths (by simpa using hletter)]
  simp only [hconversion, Option.map_some]

theorem readPrecision?_append (f : DirectiveForm) (rest : Text) :
    Directive.readPrecision? (f.precisionText ++ (f.lengths ++ f.letter :: rest)) =
      some (f.precision.map CountForm.count, f.lengths ++ f.letter :: rest) := by
  unfold precisionText
  cases f.precision with
  | none =>
      have hpoint := f.stops_tail rest (p := (· == '.')) (by decide)
      simp only [Option.elim_none, List.nil_append, Option.map_none]
      unfold Directive.readPrecision?
      split
      · next heq =>
          rw [heq] at hpoint
          simp at hpoint
      · rfl
  | some count =>
      have hread := Count.read?_form_append count (f.stops_tail rest (by decide))
      simp only [Option.elim_some, List.cons_append, Directive.readPrecision?, hread,
        Option.map_some]

theorem readWidth_append (f : DirectiveForm) (rest : Text) :
    Directive.readWidth (f.widthText ++ (f.precisionText ++ (f.lengths ++ f.letter :: rest))) =
      (f.width.map CountForm.count, f.precisionText ++ (f.lengths ++ f.letter :: rest)) := by
  have hdigit := f.stops_ending rest (p := Char.isDigit) (by decide) (by decide)
  unfold widthText Directive.readWidth
  cases f.width with
  | none =>
      have hstar := f.stops_ending rest (p := (· == '*')) (by decide) (by decide)
      simp only [Option.elim_none, List.nil_append, Option.map_none]
      rw [Count.read?_of_ne_star hstar, readNumber?_eq_none hdigit]
      rfl
  | some count =>
      simp only [Option.elim_some, Option.map_some]
      rw [Count.read?_form_append count hdigit]

/-- Where no width digit is a leading zero, the flags end where the width begins. -/
theorem stops_isFlag (f : DirectiveForm) (hzeros : f.ZerosAreFlags) (rest : Text) :
    Stops Flags.isFlag
      (f.widthText ++ (f.precisionText ++ (f.lengths ++ f.letter :: rest))) := by
  unfold widthText
  cases hwidth : f.width with
  | none => exact f.stops_ending rest (by decide) (by decide)
  | some count =>
      cases count with
      | digits n =>
          obtain ⟨c, more, hrun, hdigit⟩ := n.exists_cons
          have hzero := hzeros n hwidth
          rw [hrun, Text.stops_cons, beq_eq_false_iff_ne] at hzero
          simp only [Option.elim_some, CountForm.text, hrun, List.cons_append, Text.stops_cons]
          unfold Flags.isFlag
          simp only [Bool.or_eq_false_iff, beq_eq_false_iff_ne]
          refine ⟨⟨⟨⟨?_, ?_⟩, ?_⟩, hzero⟩, ?_⟩
          all_goals
            rintro rfl
            simp at hdigit
      | star => simp [CountForm.text, Flags.isFlag]
      | starAt n => simp [CountForm.text, Flags.isFlag]

/-- A dollar sign never follows the digits at the head of the flags and the width. -/
theorem stops_dollar (f : DirectiveForm) (rest : Text) :
    Stops (· == '$') ((f.flags ++ (f.widthText ++ (f.precisionText ++
      (f.lengths ++ f.letter :: rest)))).dropWhile Char.isDigit) := by
  apply Text.stops_dropWhile_append
  · rintro c hc rfl
    exact absurd (f.mem_flags _ hc) (by decide)
  · have hending := f.stops_ending rest (p := (· == '$')) (by decide) (by decide)
    have hdigit := f.stops_ending rest (p := Char.isDigit) (by decide) (by decide)
    rw [← Text.dropWhile_eq_self hdigit] at hending
    unfold widthText
    cases f.width with
    | none => exact hending
    | some count =>
        cases count with
        | digits n =>
            refine Text.stops_dropWhile_append ?_ hending
            rintro c hc rfl
            exact absurd (n.isDigit _ hc) (by decide)
        | star => simp [CountForm.text]
        | starAt n => simp [CountForm.text]

theorem readPosition_append (f : DirectiveForm) (rest : Text) :
    let body := f.flags ++ (f.widthText ++ (f.precisionText ++ (f.lengths ++ f.letter :: rest)))
    Directive.readPosition (f.positionText ++ body) =
      (f.position.map DigitRun.number, body) := by
  intro body
  unfold positionText Directive.readPosition
  cases f.position with
  | none =>
      simp only [Option.elim_none, List.nil_append, Option.map_none]
      split
      · next hnumber =>
          obtain ⟨-, -, -, hbehind⟩ := exists_run_of_readNumber? hnumber
          have hdollar : Stops (· == '$') (body.dropWhile Char.isDigit) := f.stops_dollar rest
          rw [← hbehind] at hdollar
          simp at hdollar
      · rfl
  | some n =>
      have hdollar : Stops Char.isDigit ('$' :: body) := by simp
      simp only [Option.elim_some, List.append_assoc, List.cons_append, List.nil_append,
        readNumber?_run_append n hdollar, Option.map_some]

/-- Reading a directive that is spelled as `f` says gives the parts of `f`, whatever follows. -/
theorem read?_append (f : DirectiveForm) (hzeros : f.ZerosAreFlags) (rest : Text) :
    Directive.read? (f.text ++ rest) = some (f.directive, rest) := by
  have hposition := f.readPosition_append rest
  have hflags := f.stops_isFlag hzeros rest
  have htext : f.text ++ rest = f.positionText ++ (f.flags ++ (f.widthText ++
      (f.precisionText ++ (f.lengths ++ f.letter :: rest)))) := by
    simp [text]
  unfold Directive.read?
  rw [htext, hposition]
  simp only [Text.takeWhile_run_append f.isFlag_of_mem_flags hflags,
    Text.dropWhile_run_append f.isFlag_of_mem_flags hflags, f.readWidth_append rest,
    f.readPrecision?_append rest, f.readConversion?_append rest, Option.bind_some,
    Option.map_some, directive_eq]

/-- Zeros in front of a width can be counted among the flags. -/
theorem exists_zerosAreFlags (f : DirectiveForm) :
    ∃ g : DirectiveForm, g.ZerosAreFlags ∧ g.text = f.text := by
  by_cases hzeros : f.ZerosAreFlags
  · exact ⟨f, hzeros, rfl⟩
  · simp only [ZerosAreFlags, not_forall] at hzeros
    obtain ⟨n, hwidth, -⟩ := hzeros
    have hflags : ∀ c ∈ f.flags ++ n.run.takeWhile (· == '0'), c ∈ flagLetters := by
      intro c hc
      rcases List.mem_append.mp hc with hflag | hzero
      · exact f.mem_flags c hflag
      · have hc : c = '0' := by simpa using List.mem_takeWhile_imp hzero
        simp [hc, flagLetters]
    have hwidthText : f.widthText = n.run.takeWhile (· == '0') ++ n.run.dropWhile (· == '0') := by
      simp [widthText, hwidth, CountForm.text]
    by_cases hrest : n.run.dropWhile (· == '0') = []
    · refine ⟨{ f with flags := _, width := none, mem_flags := hflags }, ?_, ?_⟩
      · intro m hm
        cases hm
      · rw [text, text, hwidthText, hrest]
        simp [widthText, positionText, precisionText]
    · have hdigit : ∀ c ∈ n.run.dropWhile (· == '0'), c.isDigit := by
        intro c hc
        exact n.isDigit c ((List.dropWhile_sublist _).mem hc)
      let m : DigitRun := ⟨_, hrest, hdigit⟩
      refine ⟨{ f with flags := _, width := some (.digits m), mem_flags := hflags }, ?_, ?_⟩
      · intro k hk
        cases hk
        exact Text.stops_dropWhile _ _
      · rw [text, text, hwidthText]
        simp [widthText, positionText, precisionText, CountForm.text, m]

/-- No derivation is missed, wherever its zeros stand. -/
theorem exists_read?_append (f : DirectiveForm) (rest : Text) :
    ∃ d, Directive.read? (f.text ++ rest) = some (d, rest) := by
  obtain ⟨g, hzeros, htext⟩ := f.exists_zerosAreFlags
  rw [← htext]
  exact ⟨g.directive, g.read?_append hzeros rest⟩

end DirectiveForm

/-! ## From what was read back to a derivation -/

namespace Directive

theorem exists_run_of_readPosition (text : Text) :
    ∃ position : Option DigitRun, position.map DigitRun.number = (readPosition text).1 ∧
      text = position.elim [] (fun n => n.run ++ ['$']) ++ (readPosition text).2 := by
  unfold readPosition
  split
  · next hnumber =>
      obtain ⟨n, htext, hvalue, -⟩ := exists_run_of_readNumber? hnumber
      exact ⟨some n, by simp [hvalue], by simp [htext]⟩
  · exact ⟨none, rfl, rfl⟩

theorem exists_form_of_readWidth (text : Text) :
    ∃ width : Option CountForm, width.map CountForm.count = (readWidth text).1 ∧
      text = width.elim [] CountForm.text ++ (readWidth text).2 := by
  unfold readWidth
  split
  · next hread =>
      obtain ⟨form, htext, hcount⟩ := Count.exists_form_of_read? hread
      exact ⟨some form, by simp [hcount], htext⟩
  · exact ⟨none, rfl, rfl⟩

theorem exists_form_of_readPrecision? {text rest : Text} {found : Option Count}
    (h : readPrecision? text = some (found, rest)) :
    ∃ precision : Option CountForm, precision.map CountForm.count = found ∧
      text = precision.elim [] (fun p => '.' :: p.text) ++ rest := by
  unfold readPrecision? at h
  split at h
  · simp only [Option.map_eq_some_iff, Prod.mk.injEq] at h
    obtain ⟨⟨count, behind⟩, hread, rfl, rfl⟩ := h
    obtain ⟨form, htext, hcount⟩ := Count.exists_form_of_read? hread
    exact ⟨some form, by simp [hcount], by simp [htext]⟩
  · simp only [Option.some.injEq, Prod.mk.injEq] at h
    obtain ⟨rfl, rfl⟩ := h
    exact ⟨none, rfl, rfl⟩

theorem exists_letter_of_readConversion? {text rest : Text} {conversion : Conversion}
    (h : readConversion? text = some (conversion, rest)) :
    ∃ lengths letter, (∀ c ∈ lengths, c ∈ lengthLetters) ∧
      letter ∈ conversion.letters ∧ text = lengths ++ letter :: rest := by
  unfold readConversion? at h
  split at h
  · next letter behind hdrop =>
      simp only [Option.map_eq_some_iff, Prod.mk.injEq] at h
      obtain ⟨found, hletter, rfl, rfl⟩ := h
      refine ⟨text.takeWhile isLength, letter, ?_, Conversion.mem_letters_iff.mpr hletter, ?_⟩
      · intro c hc
        exact mem_lengthLetters_iff.mpr (List.mem_takeWhile_imp hc)
      · rw [← hdrop, List.takeWhile_append_dropWhile]
  · simp at h

/-- Whatever is read has a derivation in which no zero stands in front of the width. -/
theorem exists_form_of_read? {text rest : Text} {d : Directive}
    (h : read? text = some (d, rest)) :
    ∃ f : DirectiveForm, f.ZerosAreFlags ∧ text = f.text ++ rest ∧ f.directive = d := by
  unfold read? at h
  simp only [Option.bind_eq_some_iff, Option.map_eq_some_iff, Prod.mk.injEq] at h
  obtain ⟨⟨counted, tail⟩, hprecision, ⟨conversion, rest⟩, hconversion, rfl, rfl⟩ := h
  obtain ⟨position, hposition, htext⟩ := exists_run_of_readPosition text
  obtain ⟨width, hwidth, hbody⟩ := exists_form_of_readWidth
    ((readPosition text).2.dropWhile Flags.isFlag)
  obtain ⟨precision, hprecisionCount, hending⟩ := exists_form_of_readPrecision? hprecision
  obtain ⟨lengths, letter, hlengths, hletter, rfl⟩ := exists_letter_of_readConversion? hconversion
  have hflagRun : ∀ c ∈ (readPosition text).2.takeWhile Flags.isFlag, c ∈ flagLetters := by
    intro c hc
    exact mem_flagLetters_iff.mpr (List.mem_takeWhile_imp hc)
  refine ⟨⟨position, (readPosition text).2.takeWhile Flags.isFlag, width, precision, lengths,
    letter, conversion, hflagRun, hlengths, hletter⟩, ?_, ?_, ?_⟩
  · rintro n rfl
    -- The width begins where the flags stopped, and a zero would have been one of them.
    have hstops := Text.stops_dropWhile Flags.isFlag (readPosition text).2
    obtain ⟨c, more, hrun, -⟩ := n.exists_cons
    rw [hbody] at hstops
    simp only [Option.elim_some, CountForm.text, hrun, List.cons_append, Text.stops_cons] at hstops
    rw [hrun, Text.stops_cons, beq_eq_false_iff_ne]
    rintro rfl
    simp [Flags.isFlag] at hstops
  · have hflags : (readPosition text).2 = (readPosition text).2.takeWhile Flags.isFlag ++
        (readPosition text).2.dropWhile Flags.isFlag := List.takeWhile_append_dropWhile.symm
    rw [hbody, hending] at hflags
    calc
      text = position.elim [] (fun n => n.run ++ ['$']) ++ (readPosition text).2 := htext
      _ = position.elim [] (fun n => n.run ++ ['$']) ++ _ := congrArg _ hflags
      _ = _ := by
        simp [DirectiveForm.text, DirectiveForm.positionText, DirectiveForm.widthText,
          DirectiveForm.precisionText]
  · simp only [DirectiveForm.directive_eq, hposition, hwidth, hprecisionCount]

/-- What stands behind a directive has no part in how it is read. -/
theorem read?_append_of_read? {word rest : Text} {d : Directive}
    (h : read? (word ++ rest) = some (d, rest)) (rest' : Text) :
    read? (word ++ rest') = some (d, rest') := by
  obtain ⟨f, hzeros, htext, rfl⟩ := exists_form_of_read? h
  rw [List.append_cancel_right htext]
  exact f.read?_append hzeros rest'

theorem exists_word_of_read? {text rest : Text} {d : Directive}
    (h : read? text = some (d, rest)) : ∃ word, text = word ++ rest := by
  obtain ⟨f, -, htext, -⟩ := exists_form_of_read? h
  exact ⟨f.text, htext⟩

/-- The reader accepts exactly the words of the grammar.  At most one prefix of a text is a word, so
there is one place where a directive can end.  What is read off are the parts of the derivation in
which the zeros in front of the width are flags. -/
theorem read?_decides_grammar (text : Text) :
    (∀ rest, (∃ d, read? text = some (d, rest)) ↔ ∃ f : DirectiveForm, text = f.text ++ rest) ∧
    (∀ f g : DirectiveForm, f.text <+: text → g.text <+: text → f.text = g.text) ∧
    (∀ d rest, read? text = some (d, rest) ↔
      ∃ f : DirectiveForm, f.ZerosAreFlags ∧ text = f.text ++ rest ∧ f.directive = d) := by
  refine ⟨?_, ?_, ?_⟩
  · intro rest
    constructor
    · rintro ⟨d, hread⟩
      obtain ⟨f, -, htext, -⟩ := exists_form_of_read? hread
      exact ⟨f, htext⟩
    · rintro ⟨f, rfl⟩
      obtain ⟨d, hread⟩ := f.exists_read?_append rest
      exact ⟨d, hread⟩
  · rintro f g ⟨rest, hf⟩ ⟨rest', hg⟩
    obtain ⟨d, hread⟩ := f.exists_read?_append rest
    obtain ⟨d', hread'⟩ := g.exists_read?_append rest'
    rw [hf] at hread
    rw [hg, hread] at hread'
    have hrest : rest = rest' := by
      simp only [Option.some.injEq, Prod.mk.injEq] at hread'
      exact hread'.2
    rw [← hrest, ← hf] at hg
    exact (List.append_cancel_right hg).symm
  · intro d rest
    constructor
    · exact exists_form_of_read?
    · rintro ⟨f, hzeros, rfl, rfl⟩
      exact f.read?_append hzeros rest

/-- `007d` has a derivation with a width of three digits and one with two flags. -/
theorem read?_decides_grammar_zeros :
    let flags : DirectiveForm :=
      ⟨none, ['0', '0'], some (.digits ⟨['7'], by simp, by simp⟩), none, [], 'd', .decimal,
        by simp [flagLetters], by simp, by decide⟩
    let digits : DirectiveForm :=
      ⟨none, [], some (.digits ⟨['0', '0', '7'], by simp, by simp⟩), none, [], 'd', .decimal,
        by simp [flagLetters], by simp, by decide⟩
    let text : Text := ['0', '0', '7', 'd', '!']
    flags.text <+: text ∧ digits.text <+: text ∧ digits.text = flags.text ∧
      flags.ZerosAreFlags ∧ text = flags.text ++ ['!'] ∧
      read? text = some (flags.directive, ['!']) := by
  intro flags digits text
  have hflags : flags.text <+: text := by decide
  have hdigits : digits.text <+: text := by decide
  have hzeros : flags.ZerosAreFlags := by
    rintro n hn
    cases hn
    simp
  obtain ⟨-, hunique, hread⟩ := read?_decides_grammar text
  exact ⟨hflags, hdigits, hunique digits flags hdigits hflags, hzeros, rfl,
    (hread flags.directive ['!']).mpr ⟨flags, hzeros, rfl, rfl⟩⟩

end Directive

end CellMachine
