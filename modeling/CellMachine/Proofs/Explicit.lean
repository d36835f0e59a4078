import CellMachine.Proofs.Operands
import CellMachine.Proofs.Print
/-!
# Explicit positions

Arguments that a template takes in turn can be numbered from the left: in each directive the width
first, then the precision, then the value.  With these numbers as explicit positions, no lookup
depends on whose turn it is.  Main statement: the template with all positions explicit expands to
the same text, or fails in the same way.
-/

namespace CellMachine

namespace FormatError

/-- What is wrong with a directive. -/
inductive Kind where
  | nonFiniteWidth
  | nonFinitePrecision
  | widthOverflow
  | precisionOverflow
deriving DecidableEq

def kind : FormatError → Kind
  | .nonFiniteWidth _ => .nonFiniteWidth
  | .nonFinitePrecision _ => .nonFinitePrecision
  | .widthOverflow _ => .widthOverflow
  | .precisionOverflow _ => .precisionOverflow

end FormatError

/-- The count, with position `k` in place of an argument taken in turn. -/
def Count.explicit (k : Nat) : Count → Count
  | .next => .position k
  | count => count

/-- The directive with explicit positions, where `before` arguments were taken in turn before it. -/
def Directive.explicit (before : Nat) (d : Directive) : Directive :=
  { d with
    width := d.width.map (Count.explicit (before + 1))
    precision := d.precision.map (Count.explicit (before + d.widthUses + 1))
    position := some (d.position.getD (before + d.widthUses + d.precisionUses + 1)) }

def Segment.explicit (before : Nat) : Segment → Segment
  | .directive d raw => .directive (d.explicit before) raw
  | s => s

/-- The segments with explicit positions, where `before` arguments were taken in turn before
them. -/
def Template.explicit : Nat → List Segment → List Segment
  | _, [] => []
  | before, s :: rest => s.explicit before :: explicit (before + s.uses) rest

/-! ## Expansion -/

private theorem mapError_bind_congr {ε κ α β : Type} {f : ε → κ} {x y : Except ε α}
    {g g' : α → Except ε β} (h : x.mapError f = y.mapError f)
    (hg : ∀ a, (g a).mapError f = (g' a).mapError f) :
    (x >>= g).mapError f = (y >>= g').mapError f := by
  cases x with
  | error e =>
      cases y with
      | error e' => exact congrArg Except.error (Except.error.inj h)
      | ok a => cases h
  | ok a =>
      cases y with
      | error e => cases h
      | ok a' =>
          obtain rfl := Except.ok.inj h
          exact hg a

private theorem mapError_map_congr {ε κ α β : Type} {f : ε → κ} {x y : Except ε α} (g : α → β)
    (h : x.mapError f = y.mapError f) : (x.map g).mapError f = (y.map g).mapError f :=
  mapError_bind_congr (g := fun a => .ok (g a)) h fun _ => rfl

theorem Count.fst_count_explicit (count : Count) {args args' : Arguments}
    (h : args'.values = args.values) :
    (args'.count (count.explicit (args.cursor + 1))).1 = (args.count count).1 := by
  cases count with
  | literal n => rfl
  | next => simp only [explicit, Arguments.count, Arguments.atPosition_succ, Arguments.next,
      Arguments.get, h]
  | position n => cases n <;> simp only [explicit, Arguments.count, Arguments.atPosition,
      Arguments.get, h]

@[simp] theorem Count.uses_explicit (count : Count) (k : Nat) : (count.explicit k).uses = 0 := by
  cases count <;> rfl

namespace Directive

@[simp] theorem widthUses_explicit (d : Directive) (before : Nat) :
    (d.explicit before).widthUses = 0 := by
  unfold widthUses explicit
  cases d.width <;> simp

@[simp] theorem precisionUses_explicit (d : Directive) (before : Nat) :
    (d.explicit before).precisionUses = 0 := by
  unfold precisionUses explicit
  cases d.precision <;> simp

@[simp] theorem uses_explicit (d : Directive) (before : Nat) : (d.explicit before).uses = 0 := by
  rw [uses, widthUses_explicit, precisionUses_explicit]
  rfl

/-- Explicit positions lead to the operands that were taken in turn. -/
theorem operands_explicit (d : Directive) {args args' : Arguments}
    (h : args'.values = args.values) :
    (d.explicit args.cursor).operands args' = d.operands args := by
  have hwidth : (d.explicit args.cursor).width.map (fun count => (args'.count count).1) =
      d.width.map fun count => (args.count count).1 := by
    simp only [explicit, Option.map_map]
    apply Option.map_congr
    intro count _
    exact count.fst_count_explicit h
  have hprecision :
      (d.explicit args.cursor).precision.map (fun count => (args'.count count).1) =
        d.precision.map fun count => ((args.skip d.widthUses).count count).1 := by
    simp only [explicit, Option.map_map]
    apply Option.map_congr
    intro count _
    have hvalues : args'.values = (args.skip d.widthUses).values := h
    exact count.fst_count_explicit hvalues
  have hvalue : (args'.pick (d.explicit args.cursor).position).1 =
      ((args.skip (d.widthUses + d.precisionUses)).pick d.position).1 := by
    simp only [explicit]
    cases d.position with
    | none =>
        simp only [Option.getD_none, Arguments.pick, Arguments.atPosition_succ, Arguments.next,
          Arguments.get, Arguments.skip, h, ← Nat.add_assoc]
    | some n =>
        cases n <;> simp only [Option.getD_some, Arguments.pick, Arguments.atPosition,
          Arguments.get, Arguments.skip, h]
  simp only [operands, widthUses_explicit, precisionUses_explicit, Nat.add_zero,
    Arguments.skip_zero, hwidth, hprecision, hvalue]

theorem checkWidth_kind (raw raw' : Text) (x : Double) :
    (checkWidth raw' x).mapError FormatError.kind =
      (checkWidth raw x).mapError FormatError.kind := by
  unfold checkWidth
  cases x.trunc? with
  | none => rfl
  | some width =>
      simp only
      split <;> rfl

theorem checkPrecision_kind (raw raw' : Text) (conversion : Conversion) (x : Double) :
    (checkPrecision raw' conversion x).mapError FormatError.kind =
      (checkPrecision raw conversion x).mapError FormatError.kind := by
  unfold checkPrecision
  cases x.trunc? with
  | none => rfl
  | some precision =>
      simp only
      split
      · rfl
      · split <;> rfl

/-- Explicit positions do not change the layout, and what is wrong with a directive does not depend
on its text. -/
theorem layout_explicit_kind (d : Directive) (before : Nat) (raw raw' : Text) (found : Operands) :
    ((d.explicit before).layout raw' found).mapError FormatError.kind =
      (d.layout raw found).mapError FormatError.kind := by
  have hwidth : (found.width.elim (.ok (0, false)) (checkWidth raw')).mapError FormatError.kind =
      (found.width.elim (.ok (0, false)) (checkWidth raw)).mapError FormatError.kind := by
    cases found.width with
    | none => rfl
    | some x => exact checkWidth_kind raw raw' x
  have hprecision :
      (found.precision.elim (.ok d.conversion.defaultPrecision)
        (checkPrecision raw' d.conversion)).mapError FormatError.kind =
      (found.precision.elim (.ok d.conversion.defaultPrecision)
        (checkPrecision raw d.conversion)).mapError FormatError.kind := by
    cases found.precision with
    | none => rfl
    | some x => exact checkPrecision_kind raw raw' d.conversion x
  have hconversion : (d.explicit before).conversion = d.conversion := rfl
  have hflags : (d.explicit before).flags = d.flags := rfl
  simp only [layout, hconversion, hflags]
  apply mapError_bind_congr hwidth
  intro width
  apply mapError_bind_congr hprecision
  intro precision
  rfl

end Directive

theorem Segment.text_explicit_kind (m : Memory) (s : Segment) {args args' : Arguments}
    (h : args'.values = args.values) :
    ((s.explicit args.cursor).respelled.text m args').mapError FormatError.kind =
      (s.respelled.text m args).mapError FormatError.kind := by
  cases s with
  | literal text => rfl
  | percent => rfl
  | directive d raw =>
      simp only [explicit, respelled, text, d.operands_explicit h]
      apply mapError_map_congr
      exact d.layout_explicit_kind args.cursor d.spelling _ _

@[simp] theorem Segment.uses_respelled (s : Segment) : s.respelled.uses = s.uses := by
  cases s <;> rfl

@[simp] theorem Segment.uses_explicit (s : Segment) (before : Nat) :
    (s.explicit before).uses = 0 := by
  cases s with
  | literal text => rfl
  | percent => rfl
  | directive d raw => exact d.uses_explicit before

namespace Template

theorem expand_explicit_kind (m : Memory) (segments : List Segment) {args args' : Arguments}
    (h : args'.values = args.values) :
    (expand m args' ((explicit args.cursor segments).map Segment.respelled)).mapError
        FormatError.kind =
      (expand m args (segments.map Segment.respelled)).mapError FormatError.kind := by
  -- On what is left of the template.  The cursor of `args` counts what was taken in turn so far;
  -- that of `args'` never moves.
  induction segments generalizing args with
  | nil => rfl
  | cons s rest ih =>
      have hrest := @ih (args.skip s.uses) h
      simp only [explicit, List.map_cons, expand_cons, Segment.uses_respelled,
        Segment.uses_explicit, Arguments.skip_zero]
      apply mapError_bind_congr (s.text_explicit_kind m h)
      intro text
      apply mapError_bind_congr hrest
      intro more
      rfl

end Template

/-! ## The template -/

theorem Count.uses_le_length_spelling (count : Count) : count.uses ≤ count.spelling.length := by
  cases count <;> simp [uses, spelling]

theorem Count.bounded_explicit {count : Count} (h : count.Bounded) {k : Nat}
    (hk : count.uses = 1 → k < 2 ^ 64) : (count.explicit k).Bounded := by
  cases count with
  | literal n => exact h
  | next => exact hk rfl
  | position n => exact h

namespace Directive

/-- Each argument that is taken in turn has a character of its own in the directive. -/
theorem uses_le_length_spelling (d : Directive) : d.uses ≤ d.spelling.length := by
  have hwidth : d.widthUses ≤ (d.width.elim [] Count.spelling).length := by
    unfold widthUses
    cases d.width with
    | none => simp
    | some count => exact count.uses_le_length_spelling
  have hprecision :
      d.precisionUses ≤ (d.precision.elim [] (fun p => '.' :: p.spelling)).length := by
    unfold precisionUses
    cases d.precision with
    | none => simp
    | some count =>
        have hcount := count.uses_le_length_spelling
        simp only [Option.elim_some, List.length_cons]
        omega
  have hvalue : (if d.position = none then 1 else 0) ≤ 1 := by split <;> omega
  simp only [uses, spelling, List.length_cons, List.length_append, List.length_nil]
  omega

theorem printable_explicit {d : Directive} (h : d.Printable) {before : Nat}
    (hbefore : before + d.uses < 2 ^ 64) : (d.explicit before).Printable := by
  obtain ⟨hposition, hwidth, hprecision, hzero⟩ := h
  refine ⟨?_, ?_, ?_, ?_⟩
  · intro n hn
    obtain rfl : d.position.getD (before + d.widthUses + d.precisionUses + 1) = n :=
      Option.some.inj hn
    cases hd : d.position with
    | none =>
        simp only [uses, hd, if_true] at hbefore
        simp only [Option.getD_none]
        omega
    | some n => exact hposition n hd
  · intro count hcount
    obtain ⟨source, hsource, rfl⟩ := Option.map_eq_some_iff.mp hcount
    apply Count.bounded_explicit (hwidth source hsource)
    intro huses
    have : d.widthUses = 1 := by rw [widthUses, hsource, Option.elim_some, huses]
    simp only [uses] at hbefore
    omega
  · intro count hcount
    obtain ⟨source, hsource, rfl⟩ := Option.map_eq_some_iff.mp hcount
    apply Count.bounded_explicit (hprecision source hsource)
    intro huses
    have : d.precisionUses = 1 := by rw [precisionUses, hsource, Option.elim_some, huses]
    simp only [uses] at hbefore
    omega
  · intro hexplicit
    obtain ⟨source, hsource, hliteral⟩ := Option.map_eq_some_iff.mp hexplicit
    cases source with
    | literal n => exact hzero (by rw [hsource, ← hliteral]; rfl)
    | next => cases hliteral
    | position n => cases hliteral

end Directive

namespace Segment

theorem uses_le_length_print (s : Segment) : s.uses ≤ s.print.length := by
  cases s with
  | literal text => exact Nat.zero_le _
  | percent => exact Nat.zero_le _
  | directive d raw => exact d.uses_le_length_spelling

theorem printable_explicit {s : Segment} (h : s.Printable) {before : Nat}
    (hbefore : before + s.uses < 2 ^ 64) : (s.explicit before).Printable := by
  cases s with
  | literal text => exact h
  | percent => exact h
  | directive d raw => exact Directive.printable_explicit h hbefore

@[simp] theorem isLiteral_explicit (s : Segment) (before : Nat) :
    (s.explicit before).isLiteral = s.isLiteral := by
  cases s <;> rfl

end Segment

namespace Template

theorem uses_map_respelled (segments : List Segment) :
    uses (segments.map Segment.respelled) = uses segments := by
  simp [uses, Function.comp_def]

theorem uses_le_length_print (segments : List Segment) :
    uses segments ≤ (segments.flatMap Segment.print).length := by
  induction segments with
  | nil => exact Nat.le_refl 0
  | cons s rest ih =>
      have hs := s.uses_le_length_print
      rw [uses_cons, List.flatMap_cons, List.length_append]
      omega

theorem uses_explicit (before : Nat) (segments : List Segment) :
    uses (explicit before segments) = 0 := by
  induction segments generalizing before with
  | nil => rfl
  | cons s rest ih => rw [explicit, uses_cons, Segment.uses_explicit, ih]

theorem printable_explicit {segments : List Segment} (h : ∀ s ∈ segments, s.Printable)
    {before : Nat} (hbefore : before + uses segments < 2 ^ 64) :
    ∀ s ∈ explicit before segments, s.Printable := by
  induction segments generalizing before with
  | nil => simp [explicit]
  | cons s rest ih =>
      rw [uses_cons] at hbefore
      rw [explicit, List.forall_mem_cons]
      exact ⟨Segment.printable_explicit (h s (by simp)) (by omega),
        ih (fun t ht => h t (by simp [ht])) (by omega)⟩

theorem map_isLiteral_explicit (before : Nat) (segments : List Segment) :
    (explicit before segments).map Segment.isLiteral = segments.map Segment.isLiteral := by
  induction segments generalizing before with
  | nil => rfl
  | cons s rest ih => simp [explicit, ih]

theorem separated_explicit {segments : List Segment} (h : Separated segments) (before : Nat) :
    Separated (explicit before segments) := by
  have hkinds : (segments.map Segment.isLiteral).IsChain
      fun a b : Bool => ¬(a = true ∧ b = true) :=
    (List.isChain_map Segment.isLiteral).mpr h
  rw [← map_isLiteral_explicit before] at hkinds
  exact (List.isChain_map Segment.isLiteral).mp hkinds

/-- A template whose literals hold no percent sign and do not touch is written anew with an explicit
position for every argument that it takes in turn.  The new template takes none in turn.  With any
values it expands to the same text as before, or fails for the same reason. -/
theorem format_explicit (segments : List Segment) (hprintable : ∀ s ∈ segments, s.Printable)
    (hseparated : segments.IsChain fun s t => ¬(s.isLiteral ∧ t.isLiteral))
    (hlength : (segments.flatMap Segment.print).length < 2 ^ 64) :
    uses (parse ((explicit 0 segments).flatMap Segment.print)) = 0 ∧
    ∀ (m : Memory) (values : List Value),
      (format m ((explicit 0 segments).flatMap Segment.print) values).mapError FormatError.kind =
        (format m (segments.flatMap Segment.print) values).mapError FormatError.kind := by
  have huses := uses_le_length_print segments
  have hparse := (scans_print hprintable hseparated).parse_eq
  have hparse' := (scans_print (printable_explicit hprintable (by omega))
    (separated_explicit hseparated 0)).parse_eq
  constructor
  · rw [hparse', uses_map_respelled, uses_explicit]
  · intro m values
    rw [format, format, hparse, hparse']
    exact @expand_explicit_kind m segments { values := values } { values := values } rfl

/-- The template `%*.*2$d|%1$*s%%%.*f` takes five arguments in turn; with three it runs past their
end. -/
theorem format_explicit_mixed :
    let first : Directive :=
      { width := some .next, precision := some (.position 2), conversion := .decimal }
    let second : Directive := { position := some 1, width := some .next, conversion := .str }
    let third : Directive := { precision := some .next, conversion := .fixed false }
    let segments : List Segment :=
      [.directive first [], .literal ['|'], .directive second [], .percent, .directive third []]
    let template : Text := "%2$*1$.*2$d|%1$*3$s%%%5$.*4$f".toList
    let few : List Value := [.int 5, .int 3, .int (-2)]
    let m : Memory := {}
    (∀ s ∈ segments, s.Printable) ∧
      segments.IsChain (fun s t => ¬(s.isLiteral ∧ t.isLiteral)) ∧
      (segments.flatMap Segment.print).length < 2 ^ 64 ∧
      (explicit 0 segments).flatMap Segment.print = template ∧
      (format m template (few ++ [.int 1, .int 7])).mapError FormatError.kind =
        .ok "  003|5 %7.0".toList ∧
      (format m template few).mapError FormatError.kind = .error .nonFinitePrecision := by
  intro first second third segments template few m
  have hprintable : ∀ s ∈ segments, s.Printable := by decide
  have hseparated : segments.IsChain (fun s t => ¬(s.isLiteral ∧ t.isLiteral)) := by decide
  have hlength : (segments.flatMap Segment.print).length < 2 ^ 64 := by decide
  have htemplate : (explicit 0 segments).flatMap Segment.print = template := by decide
  have hall : (format m (segments.flatMap Segment.print) (few ++ [.int 1, .int 7])).mapError
      FormatError.kind = .ok "  003|5 %7.0".toList := by decide +kernel
  have hfew : (format m (segments.flatMap Segment.print) few).mapError FormatError.kind =
      .error .nonFinitePrecision := by decide +kernel
  obtain ⟨-, hformat⟩ := format_explicit segments hprintable hseparated hlength
  rw [htemplate] at hformat
  exact ⟨hprintable, hseparated, hlength, htemplate, (hformat m _).trans hall,
    (hformat m few).trans hfew⟩

end Template

end CellMachine
