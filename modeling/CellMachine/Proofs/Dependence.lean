import CellMachine.Proofs.Operands
import Mathlib.Data.List.Basic
/-!
# What a template depends on

A template refers to its arguments in two ways.  Some it takes in turn, from the first on, and how
many is a matter of the template alone; others it names by their positions.  Both are known before
anything is expanded.  Main statement: what stands at any other position has no part in the text of
the template, nor in its failure.
-/

namespace CellMachine

/-- The position that a count names, if it does. -/
def Count.names : Count → List Nat
  | .position k => [k]
  | .literal _ | .next => []

/-- The `N` of each `N$` and `*N$` in a directive. -/
def Directive.names (d : Directive) : List Nat :=
  d.position.toList ++ d.width.elim [] Count.names ++ d.precision.elim [] Count.names

def Segment.names : Segment → List Nat
  | .directive d _ => d.names
  | .literal _ | .percent => []

namespace Template

/-- The positions that segments name. -/
def names (segments : List Segment) : List Nat := segments.flatMap Segment.names

/-- The positions that segments refer to, counted from one: as many as they take in turn, and those
that they name. -/
def references (segments : List Segment) : List Nat :=
  List.range' 1 (uses segments) ++ names segments

theorem names_cons (s : Segment) (segments : List Segment) :
    names (s :: segments) = s.names ++ names segments := rfl

end Template

/-! ## Agreement -/

/-- The same values are found for the next `n` in turn and at the given positions. -/
structure Arguments.Agree (n : Nat) (positions : List Nat) (args args' : Arguments) : Prop where
  turn : ∀ i < n, args'.get (args'.cursor + i) = args.get (args.cursor + i)
  position : ∀ k ∈ positions, args'.atPosition k = args.atPosition k

namespace Arguments

variable {n k : Nat} {positions named : List Nat} {args args' : Arguments}

theorem Agree.mono (h : Agree n positions args args') (hn : k ≤ n) (hnamed : named ⊆ positions) :
    Agree k named args args' where
  turn i hi := h.turn i (by omega)
  position p hp := h.position p (hnamed hp)

theorem Agree.skip (h : Agree (k + n) positions args args') :
    Agree n positions (args.skip k) (args'.skip k) where
  turn i hi := by
    have hturn := h.turn (k + i) (by omega)
    simpa only [Arguments.skip, Arguments.get, Nat.add_assoc] using hturn
  position p hp := by
    have hposition := h.position p hp
    cases p with
    | zero => rfl
    | succ index => simpa only [atPosition, Arguments.skip, Arguments.get] using hposition

theorem Agree.fst_count (count : Count) (h : Agree count.uses count.names args args') :
    (args'.count count).1 = (args.count count).1 := by
  cases count with
  | literal n => rfl
  | next => exact congrArg Value.toDouble (h.turn 0 (by simp [Count.uses]))
  | position k => exact congrArg Value.toDouble (h.position k (by simp [Count.names]))

theorem Agree.fst_pick (position : Option Nat)
    (h : Agree (if position = none then 1 else 0) position.toList args args') :
    (args'.pick position).1 = (args.pick position).1 := by
  cases position with
  | none => exact h.turn 0 (by simp)
  | some k => exact h.position k (by simp)

/-- A directive finds the same operands where it refers to the same values. -/
theorem Agree.operands (d : Directive) (h : Agree d.uses d.names args args') :
    d.operands args' = d.operands args := by
  have huses : d.uses = d.widthUses + (d.precisionUses + if d.position = none then 1 else 0) := by
    rw [Directive.uses, Nat.add_assoc]
  have hwidth : d.width.map (fun count => (args'.count count).1) =
      d.width.map fun count => (args.count count).1 := by
    apply Option.map_congr
    intro count hcount
    apply Agree.fst_count
    apply h.mono
    · have : d.widthUses = count.uses := by rw [Directive.widthUses, hcount, Option.elim_some]
      omega
    · intro k hk
      simp [Directive.names, Option.mem_def.mp hcount, hk]
  have hprecision : d.precision.map (fun count => ((args'.skip d.widthUses).count count).1) =
      d.precision.map fun count => ((args.skip d.widthUses).count count).1 := by
    rw [huses] at h
    apply Option.map_congr
    intro count hcount
    apply Agree.fst_count
    apply h.skip.mono
    · have : d.precisionUses = count.uses := by
        rw [Directive.precisionUses, hcount, Option.elim_some]
      omega
    · intro k hk
      simp [Directive.names, Option.mem_def.mp hcount, hk]
  have hvalue : ((args'.skip (d.widthUses + d.precisionUses)).pick d.position).1 =
      ((args.skip (d.widthUses + d.precisionUses)).pick d.position).1 := by
    apply Agree.fst_pick
    apply (Agree.skip h).mono (Nat.le_refl _)
    intro k hk
    simp only [Directive.names, List.mem_append, hk, true_or]
  rw [Directive.operands, Directive.operands, hwidth, hprecision, hvalue]

theorem Agree.text (m : Memory) (s : Segment) (h : Agree s.uses s.names args args') :
    s.text m args' = s.text m args := by
  cases s with
  | literal text => rfl
  | percent => rfl
  | directive d raw => simp only [Segment.text, Agree.operands d h]

end Arguments

namespace Template

theorem expand_of_agree (m : Memory) (segments : List Segment) {args args' : Arguments}
    (h : Arguments.Agree (uses segments) (names segments) args args') :
    expand m args' segments = expand m args segments := by
  induction segments generalizing args args' with
  | nil => rfl
  | cons s rest ih =>
      rw [uses_cons, names_cons] at h
      have hs : Arguments.Agree s.uses s.names args args' :=
        h.mono (Nat.le_add_right _ _) (List.subset_append_left _ _)
      have hrest : Arguments.Agree (uses rest) (names rest) (args.skip s.uses)
          (args'.skip s.uses) :=
        h.skip.mono (Nat.le_refl _) (List.subset_append_right _ _)
      rw [expand_cons, expand_cons, hs.text m, ih hrest]

/-! ## Lists of values -/

/-- Lists that hold the same values where segments refer to them agree for these segments. -/
theorem agree_of_references {segments : List Segment} {values values' : List Value}
    (h : ∀ k, k + 1 ∈ references segments →
      values'[k]?.getD .undefined = values[k]?.getD .undefined) :
    Arguments.Agree (uses segments) (names segments) { values := values }
      { values := values' } where
  turn i hi := by
    have hmem : i + 1 ∈ references segments := by
      rw [references, List.mem_append, List.mem_range'_1]
      exact .inl (by omega)
    simpa only [Arguments.get, Nat.zero_add] using h i hmem
  position k hk := by
    cases k with
    | zero => rfl
    | succ index => exact h index (List.mem_append_right _ hk)

/-- Two lists of values give the same text or the same failure if they hold the same values at the
positions that the template refers to, an absent value being undefined.  So values behind the last
of these positions do not count, and neither do undefined ones at the end. -/
theorem format_depends_on_references (m : Memory) (template : Text) :
    (∀ values values' : List Value,
      (∀ k, k + 1 ∈ references (parse template) →
        values'[k]?.getD .undefined = values[k]?.getD .undefined) →
      format m template values' = format m template values) ∧
    (∀ values more : List Value, (∀ k ∈ references (parse template), k ≤ values.length) →
      format m template (values ++ more) = format m template values) ∧
    (∀ (values : List Value) (n : Nat),
      format m template (values ++ List.replicate n .undefined) = format m template values) := by
  have hagree : ∀ values values' : List Value,
      (∀ k, k + 1 ∈ references (parse template) →
        values'[k]?.getD .undefined = values[k]?.getD .undefined) →
      format m template values' = format m template values := by
    intro values values' h
    exact expand_of_agree m _ (agree_of_references h)
  refine ⟨hagree, ?_, ?_⟩
  · intro values more hbehind
    apply hagree
    intro k hk
    have hlt : k < values.length := hbehind (k + 1) hk
    rw [List.getElem?_append_left hlt]
  · intro values n
    apply hagree
    intro k _
    rcases Nat.lt_or_ge k values.length with hlt | hge
    · rw [List.getElem?_append_left hlt]
    · rw [List.getElem?_append_right hge, List.getElem?_replicate, List.getElem?_eq_none hge]
      split <;> rfl

/-- `%*d%5k%4$s` takes two values in turn and names the fourth; `%5k` is literal and takes none, so
the third has no part in the text. -/
theorem format_depends_on_references_gap :
    let template : Text := "%*d%5k%4$s".toList
    let values : List Value := [.int 3, .int 7, .int 1, .str ['x']]
    let others : List Value := [.int 3, .int 7, .null, .str ['x']]
    let m : Memory := {}
    references (parse template) = [1, 2, 4] ∧
      format m template values = .ok "  7%5kx".toList ∧
      format m template others = format m template values ∧
      format m template (values ++ [.int 9]) = format m template values := by
  intro template values others m
  have hreferences : references (parse template) = [1, 2, 4] := by decide +kernel
  obtain ⟨hagree, hbehind, -⟩ := format_depends_on_references m template
  refine ⟨hreferences, by decide +kernel, hagree values others ?_, hbehind values [.int 9] ?_⟩
  · intro k hk
    have hk : k = 0 ∨ k = 1 ∨ k = 3 := by simpa [hreferences] using hk
    rcases hk with rfl | rfl | rfl <;> rfl
  · rw [hreferences]
    decide

end Template

end CellMachine
