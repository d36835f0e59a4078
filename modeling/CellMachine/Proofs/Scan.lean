import CellMachine.Proofs.Grammar
import Mathlib.Data.List.Chain
/-!
# The scan of a template

`Scans` gives the scan of a template as rules, one for each thing that can stand at the head of
what is left: a doubled percent sign, a directive, or a character that stands for itself.  The
parser follows these rules, so what holds of its segments is proved by induction on the rules.
Main statement: the segments tile the template, and a percent sign is literal only where nothing
else can be made of it.
-/

namespace CellMachine

namespace Segment

/-- The characters of a template that a segment was made of. -/
def source : Segment → Text
  | .literal text => text
  | .percent => ['%', '%']
  | .directive _ raw => raw

def isLiteral : Segment → Bool
  | .literal _ => true
  | _ => false

end Segment

namespace Template

/-- A percent sign in front of `rest` stands for itself. -/
def LonePercent (rest : Text) : Prop := rest.head? ≠ some '%' ∧ Directive.read? rest = none

/-- The segments that a scan from left to right finds in a text. -/
inductive Scans : Text → List Segment → Prop where
  | nil : Scans [] []
  | percent {rest segments} : Scans rest segments →
      Scans ('%' :: '%' :: rest) (.percent :: segments)
  | directive {d word rest segments} : Directive.read? (word ++ rest) = some (d, rest) →
      Scans rest segments → Scans ('%' :: (word ++ rest)) (.directive d ('%' :: word) :: segments)
  | literal {c rest segments} : (c = '%' → LonePercent rest) → Scans rest segments →
      Scans (c :: rest) (consLiteral c segments)

/-! ## The parser follows the rules -/

theorem read?_percent (rest : Text) : Directive.read? ('%' :: rest) = none := by
  rfl

theorem scan_eq_parse_drop (skip : Nat) (text : Text) :
    scan skip text = parse (text.drop skip) := by
  induction skip generalizing text with
  | zero => rfl
  | succ skip ih =>
      cases text with
      | nil => simp [parse, scan]
      | cons c rest => rw [scan, ih, List.drop_succ_cons]

@[simp] theorem parse_nil : parse [] = [] := by
  simp [parse, scan]

theorem parse_percent (rest : Text) : parse ('%' :: '%' :: rest) = .percent :: parse rest := by
  simp [parse, scan]

theorem parse_plain {c : Char} (hc : c ≠ '%') (rest : Text) :
    parse (c :: rest) = consLiteral c (parse rest) := by
  simp [parse, scan, hc]

theorem parse_percent_cons {rest : Text} (h : rest.head? ≠ some '%') :
    parse ('%' :: rest) = match Directive.read? rest with
      | some (d, behind) =>
        .directive d ('%' :: rest.take (rest.length - behind.length)) ::
          parse (rest.drop (rest.length - behind.length))
      | none => consLiteral '%' (parse rest) := by
  have hne : ∀ behind, rest = '%' :: behind → False := by
    rintro behind rfl
    simp at h
  rw [parse, scan]
  · cases Directive.read? rest with
    | none => rfl
    | some found =>
        obtain ⟨d, behind⟩ := found
        simp only [scan_eq_parse_drop]
  · exact hne

theorem parse_lonePercent {rest : Text} (h : LonePercent rest) :
    parse ('%' :: rest) = consLiteral '%' (parse rest) := by
  rw [parse_percent_cons h.1, h.2]

theorem parse_directive {d : Directive} {word rest : Text}
    (h : Directive.read? (word ++ rest) = some (d, rest)) :
    parse ('%' :: (word ++ rest)) = .directive d ('%' :: word) :: parse rest := by
  have hhead : (word ++ rest).head? ≠ some '%' := by
    intro hhead
    obtain ⟨behind, htext⟩ := List.head?_eq_some_iff.mp hhead
    rw [htext, read?_percent] at h
    cases h
  have hlength : (word ++ rest).length - rest.length = word.length := by simp
  rw [parse_percent_cons hhead, h]
  simp only [hlength, List.take_left, List.drop_left]

theorem scans_parse (text : Text) : Scans text (parse text) := by
  induction hlength : text.length using Nat.strongRecOn generalizing text with
  | ind n ih =>
      have hrest : ∀ rest : Text, rest.length < n → Scans rest (parse rest) :=
        fun rest hlt => ih rest.length hlt rest rfl
      cases text with
      | nil => simpa using Scans.nil
      | cons c rest =>
          have hlt : rest.length < n := by simp [← hlength]
          by_cases hc : c = '%'
          · subst c
            by_cases hhead : rest.head? = some '%'
            · obtain ⟨rest, rfl⟩ := List.head?_eq_some_iff.mp hhead
              rw [parse_percent]
              exact .percent (hrest rest (by simp at hlt; omega))
            · cases hread : Directive.read? rest with
              | none =>
                  rw [parse_lonePercent ⟨hhead, hread⟩]
                  exact .literal (fun _ => ⟨hhead, hread⟩) (hrest rest hlt)
              | some found =>
                  obtain ⟨d, behind⟩ := found
                  obtain ⟨word, rfl⟩ := Directive.exists_word_of_read? hread
                  rw [parse_directive hread]
                  exact .directive hread (hrest behind (by simp at hlt; omega))
          · rw [parse_plain hc]
            exact .literal (fun h => absurd h hc) (hrest rest hlt)

theorem Scans.parse_eq {text : Text} {segments : List Segment} (h : Scans text segments) :
    parse text = segments := by
  induction h with
  | nil => exact parse_nil
  | percent _ ih => rw [parse_percent, ih]
  | directive hread _ ih => rw [parse_directive hread, ih]
  | @literal c rest segments hlone _ ih =>
      by_cases hc : c = '%'
      · subst c
        rw [parse_lonePercent (hlone rfl), ih]
      · rw [parse_plain hc, ih]

/-! ## What holds of the segments -/

/-- The character begins a literal of its own, or it is put in front of the first literal. -/
theorem exists_consLiteral (c : Char) (segments : List Segment) :
    ∃ text more, consLiteral c segments = .literal (c :: text) :: more ∧
      ((text = [] ∧ more = segments) ∨ segments = .literal text :: more) := by
  unfold consLiteral
  split
  · exact ⟨_, _, rfl, .inr rfl⟩
  · exact ⟨[], _, rfl, .inl ⟨rfl, rfl⟩⟩

theorem mem_consLiteral {s : Segment} {c : Char} {segments : List Segment}
    (h : s ∈ consLiteral c segments) : (∃ text, s = .literal (c :: text)) ∨ s ∈ segments := by
  obtain ⟨text, more, hcons, hsegments⟩ := exists_consLiteral c segments
  rw [hcons] at h
  rcases List.mem_cons.mp h with rfl | hmem
  · exact .inl ⟨text, rfl⟩
  · rcases hsegments with ⟨-, rfl⟩ | rfl
    · exact .inr hmem
    · exact .inr (List.mem_cons_of_mem _ hmem)

theorem flatMap_source_consLiteral (c : Char) (segments : List Segment) :
    (consLiteral c segments).flatMap Segment.source = c :: segments.flatMap Segment.source := by
  obtain ⟨text, more, hcons, hsegments⟩ := exists_consLiteral c segments
  rw [hcons]
  rcases hsegments with ⟨rfl, rfl⟩ | rfl
  · rfl
  · rfl

theorem Scans.flatMap_source {text : Text} {segments : List Segment} (h : Scans text segments) :
    segments.flatMap Segment.source = text := by
  induction h with
  | nil => rfl
  | percent _ ih => simp [Segment.source, ih]
  | directive _ _ ih => simp [Segment.source, ih]
  | literal _ _ ih => rw [flatMap_source_consLiteral, ih]

theorem Scans.literal_ne_nil {text run : Text} {segments : List Segment}
    (h : Scans text segments) (hmem : .literal run ∈ segments) : run ≠ [] := by
  induction h with
  | nil => simp at hmem
  | percent _ ih => exact ih (by simpa using hmem)
  | directive _ _ ih => exact ih (by simpa using hmem)
  | literal _ _ ih =>
      rcases mem_consLiteral hmem with ⟨more, heq⟩ | hmem
      · cases heq
        simp
      · exact ih hmem

theorem Scans.exists_word_of_directive {text raw : Text} {d : Directive}
    {segments : List Segment} (h : Scans text segments) (hmem : .directive d raw ∈ segments) :
    ∃ word, raw = '%' :: word ∧ Directive.read? word = some (d, []) := by
  induction h with
  | nil => simp at hmem
  | percent _ ih => exact ih (by simpa using hmem)
  | directive hread _ ih =>
      rcases List.mem_cons.mp hmem with heq | hmem
      · cases heq
        exact ⟨_, rfl, by simpa using Directive.read?_append_of_read? hread []⟩
      · exact ih hmem
  | literal _ _ ih =>
      rcases mem_consLiteral hmem with ⟨more, heq⟩ | hmem
      · cases heq
      · exact ih hmem

/-- No two literals follow each other. -/
def Separated (segments : List Segment) : Prop :=
  segments.IsChain fun s t => ¬(s.isLiteral ∧ t.isLiteral)

theorem separated_cons {s : Segment} {segments : List Segment} (hs : s.isLiteral = false)
    (h : Separated segments) : Separated (s :: segments) :=
  List.IsChain.cons h (by simp [hs])

theorem separated_consLiteral {c : Char} {segments : List Segment} (h : Separated segments) :
    Separated (consLiteral c segments) := by
  unfold Separated at h ⊢
  cases segments with
  | nil => exact .singleton _
  | cons s more =>
      cases s with
      | literal text =>
          obtain ⟨hnext, hmore⟩ := List.isChain_cons.mp h
          exact List.IsChain.cons hmore hnext
      | percent => exact List.IsChain.cons h (by simp [Segment.isLiteral])
      | directive d raw => exact List.IsChain.cons h (by simp [Segment.isLiteral])

theorem Scans.separated {text : Text} {segments : List Segment} (h : Scans text segments) :
    Separated segments := by
  induction h with
  | nil => exact .nil
  | percent _ ih => exact separated_cons rfl ih
  | directive _ _ ih => exact separated_cons rfl ih
  | literal _ _ ih => exact separated_consLiteral ih

/-- Every percent sign in a literal stands for itself where it stands. -/
def PercentsAlone (segments : List Segment) : Prop :=
  ∀ before front back after, segments = before ++ .literal (front ++ '%' :: back) :: after →
    LonePercent (back ++ after.flatMap Segment.source)

theorem percentsAlone_cons {s : Segment} {segments : List Segment} (hs : s.isLiteral = false)
    (h : PercentsAlone segments) : PercentsAlone (s :: segments) := by
  intro before front back after heq
  cases before with
  | nil =>
      obtain ⟨rfl, -⟩ := List.cons.inj heq
      cases hs
  | cons t before => exact h before front back after (List.cons.inj heq).2

theorem percentsAlone_consLiteral {c : Char} {segments : List Segment}
    (hc : c = '%' → LonePercent (segments.flatMap Segment.source))
    (h : PercentsAlone segments) : PercentsAlone (consLiteral c segments) := by
  intro before front back after heq
  have hsource := flatMap_source_consLiteral c segments
  obtain ⟨text, more, hcons, hsegments⟩ := exists_consLiteral c segments
  rw [hcons] at heq hsource
  cases before with
  | nil =>
      obtain ⟨htext, rfl⟩ := List.cons.inj heq
      cases front with
      | nil =>
          obtain ⟨rfl, rfl⟩ := List.cons.inj (Segment.literal.inj htext)
          rw [← (List.cons.inj hsource).2] at hc
          exact hc rfl
      | cons d front =>
          obtain ⟨-, rfl⟩ := List.cons.inj (Segment.literal.inj htext)
          rcases hsegments with ⟨hnil, -⟩ | rfl
          · simp at hnil
          · exact h [] front back more rfl
  | cons t before =>
      obtain ⟨-, rfl⟩ := List.cons.inj heq
      rcases hsegments with ⟨-, rfl⟩ | rfl
      · exact h before front back after rfl
      · exact h (.literal text :: before) front back after rfl

theorem Scans.percentsAlone {text : Text} {segments : List Segment} (h : Scans text segments) :
    PercentsAlone segments := by
  induction h with
  | nil =>
      intro before front back after heq
      simp at heq
  | percent _ ih => exact percentsAlone_cons rfl ih
  | directive _ _ ih => exact percentsAlone_cons rfl ih
  | literal hlone hrest ih =>
      apply percentsAlone_consLiteral _ ih
      rwa [hrest.flatMap_source]

/-- The segments tile the template.  No literal is empty or followed by another, each directive is
what its own text is read as, and a percent sign is left in a literal only where no second percent
sign and no directive follows it. -/
theorem parse_tiles (template : Text) :
    (parse template).flatMap Segment.source = template ∧
    (∀ text, .literal text ∈ parse template → text ≠ []) ∧
    (parse template).IsChain (fun s t => ¬(s.isLiteral ∧ t.isLiteral)) ∧
    (∀ d raw, .directive d raw ∈ parse template →
      raw.head? = some '%' ∧ parse raw = [.directive d raw]) ∧
    (∀ before front back after,
      parse template = before ++ .literal (front ++ '%' :: back) :: after →
      ∃ rest, template = before.flatMap Segment.source ++ front ++ '%' :: rest ∧
        rest.head? ≠ some '%' ∧ Directive.read? rest = none) := by
  have hscans := scans_parse template
  have htiles := hscans.flatMap_source
  refine ⟨htiles, fun text => hscans.literal_ne_nil, hscans.separated, ?_, ?_⟩
  · intro d raw hmem
    obtain ⟨word, rfl, hread⟩ := hscans.exists_word_of_directive hmem
    have hword : Directive.read? (word ++ []) = some (d, []) := by simpa using hread
    exact ⟨rfl, by simpa using parse_directive hword⟩
  · intro before front back after heq
    refine ⟨back ++ after.flatMap Segment.source, ?_, hscans.percentsAlone _ _ _ _ heq⟩
    rw [heq] at htiles
    simpa [Segment.source] using htiles.symm

/-- In `%-%d%%`, the first percent sign is literal although a directive begins two characters on. -/
theorem parse_tiles_literal_percent :
    let template : Text := ['%', '-', '%', 'd', '%', '%']
    let d : Directive := { conversion := .decimal }
    parse template = [.literal ['%', '-'], .directive d ['%', 'd'], .percent] ∧
      ['%', '-'] ≠ ([] : Text) ∧ parse ['%', 'd'] = [.directive d ['%', 'd']] ∧
      ∃ rest, template = '%' :: rest ∧ rest.head? ≠ some '%' ∧ Directive.read? rest = none := by
  intro template d
  have hparse : parse template = [.literal ['%', '-'], .directive d ['%', 'd'], .percent] := rfl
  obtain ⟨-, hliteral, -, hdirective, hlone⟩ := parse_tiles template
  refine ⟨hparse, hliteral _ ?_, (hdirective d ['%', 'd'] ?_).2, ?_⟩
  · simp [hparse]
  · simp [hparse]
  · simpa using hlone [] [] ['-'] [.directive d ['%', 'd'], .percent] hparse

end Template

end CellMachine
