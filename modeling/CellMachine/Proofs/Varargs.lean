import CellMachine.Machine.Library
import Mathlib.Algebra.Group.Nat.Defs
/-!
# The flat calling convention

Arguments of a variadic function are passed as a flat list of values in which nothing marks the
pairs that are pointers.  The classifier finds the pairs by looking one value ahead.  It cannot pair
values across the border of two arguments, because no argument begins with a value that could be
the second half of a pointer.
-/

namespace CellMachine

/-- The two values of a pointer hold the pointer, and only the second of them looks like a second
half. -/
theorem Pointer.exists_pairOf {p : Option Pointer} (h : ∀ q ∈ p, q.offset < 2 ^ 63) :
    ∃ offset tail, pairOf p = [offset, tail] ∧ ofPair offset tail = p ∧
      offset.isPointerTail = false ∧ tail.isPointerTail = true := by
  cases p with
  | none => exact ⟨.int 0, .null, rfl, rfl, rfl, rfl⟩
  | some p =>
      have hoffset : (Int64.ofNat p.offset).toNatClampNeg = p.offset :=
        Int64.toNatClampNeg_ofNat_of_lt (h p rfl)
      refine ⟨.int (Int64.ofNat p.offset), .block p.block, rfl, ?_, rfl, rfl⟩
      simp only [ofPair, Value.block?, Value.toInt64, Option.map_some, hoffset]

namespace Vararg

/-- The calling convention can pass the argument: a scalar does not look like the second half of a
pointer, and an offset fits into a signed value. -/
def Passable : Vararg → Prop
  | .scalar .null | .scalar .undefined | .scalar (.block _) => False
  | .scalar _ => True
  | .pointer p => ∀ q ∈ p, q.offset < 2 ^ 63

theorem isPointerTail_of_passable {v : Value} (h : (scalar v).Passable) :
    v.isPointerTail = false := by
  cases v with
  | int n => rfl
  | float x => rfl
  | str text => rfl
  | block b => exact h.elim
  | null => exact h.elim
  | undefined => exact h.elim

theorem head_flatten {arg : Vararg} (h : arg.Passable) :
    ∃ v rest, arg.flatten = v :: rest ∧ v.isPointerTail = false := by
  cases arg with
  | scalar v => exact ⟨v, [], rfl, isPointerTail_of_passable h⟩
  | pointer p =>
      obtain ⟨offset, tail, hpair, -, hoffset, -⟩ := Pointer.exists_pairOf h
      exact ⟨offset, [tail], hpair, hoffset⟩

theorem head_flatMap_flatten {args : List Vararg} (h : ∀ arg ∈ args, arg.Passable) :
    ∀ v ∈ (args.flatMap flatten).head?, v.isPointerTail = false := by
  cases args with
  | nil => simp
  | cons arg args =>
      obtain ⟨v, rest, hflatten, hv⟩ := head_flatten (h arg (by simp))
      simp [hflatten, hv]

/-- One argument is taken off the head of the list, given that what follows does not begin with a
second half. -/
theorem classify_flatten_append {arg : Vararg} {rest : List Value} (h : arg.Passable)
    (hrest : ∀ v ∈ rest.head?, v.isPointerTail = false) :
    classify (arg.flatten ++ rest) = arg :: classify rest := by
  cases arg with
  | scalar v =>
      cases rest with
      | nil => rfl
      | cons w rest =>
          have hw : w.isPointerTail = false := hrest w rfl
          simp only [flatten, List.cons_append, List.nil_append, classify, hw,
            Bool.false_eq_true, if_false]
  | pointer p =>
      obtain ⟨offset, tail, hpair, hp, -, htail⟩ := Pointer.exists_pairOf h
      simp only [flatten, hpair, List.cons_append, List.nil_append, classify, htail, if_true, hp]

theorem classify_flatMap_flatten {args : List Vararg} (h : ∀ arg ∈ args, arg.Passable) :
    classify (args.flatMap flatten) = args := by
  induction args with
  | nil => rfl
  | cons arg args ih =>
      have hargs : ∀ arg ∈ args, arg.Passable := fun other hmem => h other (by simp [hmem])
      rw [List.flatMap_cons,
        classify_flatten_append (h arg (by simp)) (head_flatMap_flatten hargs), ih hargs]

/-! ## Further values -/

/-- The last of the values stands alone, and the first of the further ones makes a pointer of it. -/
def Joins (values extra : List Value) : Prop :=
  (∃ v, (classify values).getLast? = some (.scalar v)) ∧
    ∃ tail, extra.head? = some tail ∧ tail.isPointerTail = true

theorem not_joins_of_cons {arg : Vararg} {values rest extra : List Value}
    (hclassify : classify values = arg :: classify rest) (h : ¬Joins values extra) :
    ¬Joins rest extra := by
  rintro ⟨⟨v, hlast⟩, htail⟩
  refine h ⟨⟨v, ?_⟩, htail⟩
  rw [hclassify, List.getLast?_cons, hlast, Option.getD_some]

/-- Further values leave the arguments as they are, unless they begin with the second half of the
last one. -/
theorem classify_append {values extra : List Value} (h : ¬Joins values extra) :
    classify (values ++ extra) = classify values ++ classify extra := by
  fun_induction classify values with
  | case1 => rfl
  | case2 v =>
      cases extra with
      | nil => rfl
      | cons w rest =>
          have hw : w.isPointerTail = false := by
            rw [← Bool.not_eq_true]
            exact fun htail => h ⟨⟨v, rfl⟩, w, rfl, htail⟩
          simp only [List.cons_append, List.nil_append, classify, hw, Bool.false_eq_true, if_false]
  | case3 v tail rest htail ih =>
      have hclassify : classify (v :: tail :: rest) = .pointer (Pointer.ofPair v tail) ::
          classify rest := by
        rw [classify, if_pos htail]
      rw [List.cons_append, List.cons_append, classify, if_pos htail,
        ih (not_joins_of_cons hclassify h), List.cons_append]
  | case4 v tail rest htail ih =>
      have hclassify : classify (v :: tail :: rest) = .scalar v :: classify (tail :: rest) := by
        rw [classify, if_neg htail]
      have hrest := ih (not_joins_of_cons hclassify h)
      rw [List.cons_append] at hrest
      rw [List.cons_append, List.cons_append, classify, if_neg htail, hrest, List.cons_append]

theorem resolveAll_append (m : Memory) {values extra : List Value} (h : ¬Joins values extra) :
    resolveAll m (values ++ extra) = resolveAll m values ++ resolveAll m extra := by
  rw [resolveAll, classify_append h, List.map_append]
  rfl

/-! ## Printing -/

/-- Arguments survive being flattened, so printing them flat or with their kinds known gives the
same result and leaves the same machine. -/
theorem classify_flatten_and_printf (args : List Vararg) (h : ∀ arg ∈ args, arg.Passable) :
    classify (args.flatMap flatten) = args ∧
    ∀ (template : Pointer) (m : Machine),
      Action.printf template (args.flatMap flatten) m = Action.printfTagged template args m := by
  have hclassify := classify_flatMap_flatten h
  refine ⟨hclassify, ?_⟩
  intro template m
  unfold Action.printf Action.printfTagged resolveAll
  rw [hclassify]

/-- Scalars in front of a null pointer and of a pointer with the largest offset. -/
theorem classify_flatten_and_printf_mixed :
    let args : List Vararg :=
      [.scalar (.int 7), .pointer none, .scalar (.str ['a']), .scalar (.float .nan),
        .pointer (some { block := 1, offset := 2 ^ 63 - 1 })]
    (∀ arg ∈ args, arg.Passable) ∧
      classify
        [.int 7, .int 0, .null, .str ['a'], .float .nan, .int 9223372036854775807, .block 1] =
          args ∧
      Action.printf { block := 0 } (args.flatMap flatten) (Machine.boot {}) =
        Action.printfTagged { block := 0 } args (Machine.boot {}) := by
  intro args
  have hargs : ∀ arg ∈ args, arg.Passable := by
    simp [args, Passable]
  obtain ⟨hclassify, hprintf⟩ := classify_flatten_and_printf args hargs
  exact ⟨hargs, hclassify, hprintf { block := 0 } (Machine.boot {})⟩

end Vararg

end CellMachine
