import CellMachine.Proofs.Dependence
import CellMachine.Proofs.Print
/-!
# Templates one behind the other

A scan looks ahead only behind a percent sign, and never beyond the next one.  So a template is
scanned alike whatever is put behind it, unless it ends in a literal that holds a percent sign.
All that is carried over to the second template is how many arguments were taken in turn.  Main
statement: the text of two templates is the text of the first and then that of the second, with the
arguments that the first has left.
-/

namespace CellMachine

/-! ## Directives hold no percent sign -/

theorem DigitRun.percent_not_mem_run (n : DigitRun) : '%' ∉ n.run := by
  intro h
  exact absurd (n.isDigit _ h) (by decide)

theorem CountForm.percent_not_mem_text (f : CountForm) : '%' ∉ f.text := by
  cases f <;> simp [text, DigitRun.percent_not_mem_run]

theorem DirectiveForm.percent_not_mem_text (f : DirectiveForm) : '%' ∉ f.text := by
  have hposition : '%' ∉ f.positionText := by
    unfold positionText
    cases f.position <;> simp [DigitRun.percent_not_mem_run]
  have hflags : '%' ∉ f.flags := fun h => absurd (f.mem_flags _ h) (by decide)
  have hwidth : '%' ∉ f.widthText := by
    unfold widthText
    cases f.width <;> simp [CountForm.percent_not_mem_text]
  have hprecision : '%' ∉ f.precisionText := by
    unfold precisionText
    cases f.precision <;> simp [CountForm.percent_not_mem_text]
  have hlengths : '%' ∉ f.lengths := fun h => absurd (f.mem_lengths _ h) (by decide)
  have hletter : '%' ≠ f.letter := by
    intro h
    exact absurd (Conversion.mem_allLetters (h ▸ f.mem_letters)) (by decide)
  simp [text, hposition, hflags, hwidth, hprecision, hlengths, hletter]

/-- A word without a mark that begins in front of the mark also ends there. -/
theorem Text.prefix_of_prefix_mark {word front back : Text} {mark : Char}
    (h : word <+: front ++ mark :: back) (hmark : mark ∉ word) : word <+: front := by
  have hfront : front ++ [mark] <+: front ++ mark :: back := ⟨back, by simp⟩
  rcases Nat.lt_or_ge front.length word.length with hlt | hge
  · have hlength : (front ++ [mark]).length ≤ word.length := by
      rw [List.length_append]
      exact hlt
    have hword := List.prefix_of_prefix_length_le hfront h hlength
    exact absurd (hword.subset (by simp)) hmark
  · exact List.prefix_of_prefix_length_le h (List.prefix_append _ _) hge

namespace Template

/-- What makes a percent sign stand for itself is found before the next percent sign. -/
theorem LonePercent.append {rest : Text} (h : LonePercent rest) (hpercent : '%' ∈ rest)
    (more : Text) : LonePercent (rest ++ more) := by
  obtain ⟨front, back, rfl⟩ := List.append_of_mem hpercent
  constructor
  · have hhead := h.1
    rwa [List.head?_append_of_ne_nil _ (by simp)]
  · cases hread : Directive.read? (front ++ '%' :: back ++ more) with
    | none => rfl
    | some found =>
        obtain ⟨d, behind⟩ := found
        obtain ⟨f, hzeros, htext, -⟩ := Directive.exists_form_of_read? hread
        have hword : f.text <+: front ++ '%' :: (back ++ more) :=
          ⟨behind, by simpa using htext.symm⟩
        obtain ⟨gap, rfl⟩ := Text.prefix_of_prefix_mark hword f.percent_not_mem_text
        have hnone := h.2
        rw [List.append_assoc, f.read?_append hzeros] at hnone
        cases hnone

/-! ## The scan of two templates -/

/-- The last segment is no literal that holds a percent sign. -/
def Closed (segments : List Segment) : Prop :=
  ∀ text, segments.getLast? = some (.literal text) → '%' ∉ text

theorem Closed.of_cons {s : Segment} {segments : List Segment} (h : Closed (s :: segments)) :
    Closed segments := by
  intro text hlast
  apply h text
  cases segments with
  | nil => cases hlast
  | cons t more => rwa [List.getLast?_cons_cons]

theorem Closed.of_consLiteral {c : Char} {segments : List Segment}
    (h : Closed (consLiteral c segments)) : Closed segments := by
  obtain ⟨text, more, hcons, hsegments⟩ := exists_consLiteral c segments
  rw [hcons] at h
  rcases hsegments with ⟨-, rfl⟩ | rfl
  · exact h.of_cons
  · cases more with
    | nil =>
        intro run hrun
        obtain rfl : text = run := Segment.literal.inj (Option.some.inj hrun)
        exact fun hmem => h (c :: text) rfl (List.mem_cons_of_mem _ hmem)
    | cons t more =>
        intro run hrun
        exact h run hrun

theorem Scans.percent_mem {text : Text} {segments : List Segment} {s : Segment}
    (h : Scans text segments) (hs : s ∈ segments) (hliteral : s.isLiteral = false) :
    '%' ∈ text := by
  have hsource : '%' ∈ s.source := by
    cases s with
    | literal run => cases hliteral
    | percent => simp [Segment.source]
    | directive d raw =>
        obtain ⟨word, rfl, -⟩ := h.exists_word_of_directive hs
        simp [Segment.source]
  rw [← h.flatMap_source]
  exact List.mem_flatMap.mpr ⟨s, hs, hsource⟩

/-- A literal percent sign in a closed list of segments has another percent sign behind it. -/
theorem Scans.percent_mem_of_closed {rest : Text} {segments : List Segment}
    (h : Scans rest segments) (hlone : LonePercent rest)
    (hclosed : Closed (consLiteral '%' segments)) : '%' ∈ rest := by
  have hscans : Scans ('%' :: rest) (consLiteral '%' segments) := .literal (fun _ => hlone) h
  have hseparated := hscans.separated
  obtain ⟨text, more, hcons, -⟩ := exists_consLiteral '%' segments
  rw [hcons] at hclosed hseparated
  cases more with
  | nil => exact absurd (by simp) (hclosed _ rfl)
  | cons s more =>
      have hliteral : s.isLiteral = false := by
        have hnext := (List.isChain_cons_cons.mp hseparated).1
        simpa [Segment.isLiteral] using hnext
      have hmem : s ∈ consLiteral '%' segments := by simp [hcons]
      rcases mem_consLiteral hmem with ⟨run, rfl⟩ | hs
      · cases hliteral
      · exact h.percent_mem hs hliteral

/-- Puts a segment in front of others; two literals that touch become one. -/
def prepend : Segment → List Segment → List Segment
  | .literal text, segments => text.foldr consLiteral segments
  | s, segments => s :: segments

/-- Segments one behind the other; two literals that touch become one. -/
def join (front back : List Segment) : List Segment := front.foldr prepend back

theorem join_consLiteral (c : Char) (front back : List Segment) :
    join (consLiteral c front) back = consLiteral c (join front back) := by
  obtain ⟨text, more, hcons, hfront⟩ := exists_consLiteral c front
  rw [hcons]
  rcases hfront with ⟨rfl, rfl⟩ | rfl
  · rfl
  · rfl

theorem Scans.append {text more : Text} {segments others : List Segment}
    (h : Scans text segments) (hclosed : Closed segments) (hmore : Scans more others) :
    Scans (text ++ more) (join segments others) := by
  induction h with
  | nil => exact hmore
  | percent _ ih => exact .percent (ih hclosed.of_cons)
  | directive hread _ ih =>
      rw [List.cons_append, List.append_assoc]
      exact .directive (Directive.read?_append_of_read? hread _) (ih hclosed.of_cons)
  | literal hlone hrest ih =>
      rw [List.cons_append, join_consLiteral]
      apply Scans.literal _ (ih hclosed.of_consLiteral)
      rintro rfl
      exact (hlone rfl).append (hrest.percent_mem_of_closed (hlone rfl) hclosed) more

/-- What stands behind a template has no part in how it is scanned. -/
theorem parse_append {template : Text} (h : Closed (parse template)) (more : Text) :
    parse (template ++ more) = join (parse template) (parse more) :=
  ((scans_parse template).append h (scans_parse more)).parse_eq

/-! ## The text of two templates -/

theorem expand_prepend (m : Memory) (args : Arguments) (s : Segment) (segments : List Segment) :
    expand m args (prepend s segments) = expand m args (s :: segments) := by
  cases s with
  | literal text =>
      rw [expand_cons_of_ok rfl, prepend]
      induction text with
      | nil =>
          rw [List.foldr_nil]
          cases expand m args segments <;> rfl
      | cons c text ih =>
          rw [List.foldr_cons, expand_consLiteral, ih]
          cases expand m args segments <;> rfl
  | percent => rfl
  | directive d raw => rfl

theorem expand_join (m : Memory) (args : Arguments) (front back : List Segment) :
    expand m args (join front back) = expand m args front >>= fun text =>
      expand m (args.skip (uses front)) back >>= fun more => .ok (text ++ more) := by
  induction front generalizing args with
  | nil =>
      show expand m args back = expand m args back >>= fun more => .ok more
      cases expand m args back <;> rfl
  | cons s front ih =>
      have hjoin : join (s :: front) back = prepend s (join front back) := rfl
      rw [hjoin, expand_prepend, expand_cons, expand_cons, ih, uses_cons, Arguments.skip_skip]
      cases s.text m args with
      | error e => rfl
      | ok text =>
          cases expand m (args.skip s.uses) front with
          | error e => rfl
          | ok rest =>
              cases expand m (args.skip (s.uses + uses front)) back with
              | error e => rfl
              | ok more => exact congrArg Except.ok (List.append_assoc text rest more).symm

/-- Segments that name no position do not see the arguments that were taken in turn before. -/
theorem expand_skip_of_names_eq_nil (m : Memory) {segments : List Segment}
    (h : names segments = []) (values : List Value) (n : Nat) :
    expand m (Arguments.skip { values := values } n) segments =
      expand m { values := values.drop n } segments := by
  refine (expand_of_agree m segments ⟨?_, ?_⟩).symm
  · intro i _
    simp only [Arguments.get, Arguments.skip, List.getElem?_drop, Nat.zero_add]
  · simp [h]

/-- Let the parse of a template not end in a literal that holds a percent sign.  Where the template
fails, it also fails with more text behind it.  Otherwise its text comes first, and if the text
behind it names no position, that is expanded as a template of its own with the values that the
first one has not taken in turn. -/
theorem format_append (m : Memory) (template more : Text) (values : List Value)
    (h : ∀ text, (parse template).getLast? = some (.literal text) → '%' ∉ text) :
    (∀ e, format m template values = .error e →
      format m (template ++ more) values = .error e) ∧
    (∀ text, format m template values = .ok text → names (parse more) = [] →
      format m (template ++ more) values =
        (format m more (values.drop (uses (parse template)))).map (text ++ ·)) := by
  have hformat : format m (template ++ more) values = format m template values >>= fun text =>
      expand m (Arguments.skip { values := values } (uses (parse template))) (parse more) >>=
        fun rest => .ok (text ++ rest) := by
    rw [format, parse_append h, expand_join]
    rfl
  constructor
  · intro e he
    rw [hformat, he]
    rfl
  · intro text htext hnames
    rw [hformat, htext, expand_skip_of_names_eq_nil m hnames, format]
    cases expand m { values := values.drop (uses (parse template)) } (parse more) <;> rfl

/-- `%-%*d` begins with a literal that holds a percent sign, but it does not end with one.  Behind
its conversion letter, `0%d` begins with a literal although a zero could be a flag. -/
theorem format_append_lookahead :
    let template : Text := "%-%*d".toList
    let more : Text := "0%d".toList
    let m : Memory := {}
    (∀ text, (parse template).getLast? = some (.literal text) → '%' ∉ text) ∧
      names (parse more) = [] ∧ uses (parse template) = 2 ∧
      format m template [.int 3, .int 7, .int 5] = .ok "%-  7".toList ∧
      format m more [.int 5] = .ok "05".toList ∧
      format m (template ++ more) [.int 3, .int 7, .int 5] = .ok "%-  705".toList ∧
      format m template [.undefined] = .error (.nonFiniteWidth "%*d".toList) ∧
      format m (template ++ more) [.undefined] = .error (.nonFiniteWidth "%*d".toList) := by
  intro template more m
  have hlast : (parse template).getLast? =
      some (.directive { width := some .next, conversion := .decimal } "%*d".toList) := by
    decide +kernel
  have hclosed : ∀ text, (parse template).getLast? = some (.literal text) → '%' ∉ text := by
    intro text htext
    rw [hlast] at htext
    cases htext
  have hnames : names (parse more) = [] := by decide +kernel
  have huses : uses (parse template) = 2 := by decide +kernel
  have htext : format m template [.int 3, .int 7, .int 5] = .ok "%-  7".toList := by
    decide +kernel
  have hmore : format m more [.int 5] = .ok "05".toList := by decide +kernel
  have herror : format m template [.undefined] = .error (.nonFiniteWidth "%*d".toList) := by
    decide +kernel
  have hboth := (format_append m template more [.int 3, .int 7, .int 5] hclosed).2 _ htext hnames
  have hfailed := (format_append m template more [.undefined] hclosed).1 _ herror
  rw [huses] at hboth
  refine ⟨hclosed, hnames, huses, htext, hmore, hboth.trans ?_, herror, hfailed⟩
  show (format m more [.int 5]).map _ = _
  rw [hmore]
  rfl

end Template

end CellMachine
