import CellMachine.Proofs.Copy
import Mathlib.Algebra.Group.Nat.Defs
import Mathlib.Data.List.TakeWhile
/-!
# Texts in memory

A text is written as the codes of its characters and a terminator.  A null character has the code
of the terminator, so it ends what is read back.  Main statement: where memory holds the cells of a
text, the text is read up to its first null character.
-/

namespace CellMachine

namespace Text

/-- The part of a text in front of its first null character. -/
def untilNull (text : Text) : Text := text.takeWhile (· ≠ '\x00')

theorem untilNull_of_not_mem {text : Text} (h : '\x00' ∉ text) : text.untilNull = text := by
  apply List.takeWhile_eq_self_iff.mpr
  intro c hc
  simp only [decide_eq_true_eq]
  rintro rfl
  exact h hc

theorem toNat_lt (c : Char) : c.toNat < 2 ^ 63 := by
  have hlt : c.val.toNat < 2 ^ 32 := c.val.toNat_lt
  have hval : c.toNat = c.val.toNat := rfl
  omega

theorem toInt_toCode (c : Char) : (toCode c).toInt = c.toNat :=
  Int64.toInt_ofNat_of_lt (toNat_lt c)

@[simp] theorem ofCode_toCode (c : Char) : ofCode (toCode c) = c := by
  have hvalid : c.toNat.isValidChar := c.valid
  unfold ofCode
  rw [toInt_toCode, Int.toNat_natCast, if_pos ⟨Int.natCast_nonneg _, hvalid⟩, Char.ofNat_toNat]

theorem toCode_eq_zero_iff {c : Char} : toCode c = 0 ↔ c = '\x00' := by
  rw [← Int64.toInt_inj, toInt_toCode, Int64.toInt_zero, Int.natCast_eq_zero]
  constructor
  · intro h
    exact Char.toNat_inj.mp h
  · rintro rfl
    rfl

end Text

namespace Memory

/-! ## Runs of cells -/

@[simp] theorem length_readAll (m : Memory) (p : Pointer) (n : Nat) :
    (m.readAll p n).length = n := by
  simp [readAll]

theorem readAll_succ (m : Memory) (p : Pointer) (n : Nat) :
    m.readAll p (n + 1) = m.read p 0 :: m.readAll (p.add 1) n := by
  simp only [readAll, List.range_succ_eq_map, List.map_cons, List.map_map]
  congr 1
  apply List.map_congr_left
  intro i _
  rw [Function.comp_apply, read_add, Nat.add_comm]

theorem getElem_readAll {m : Memory} {p : Pointer} {n i : Nat} (hi : i < (m.readAll p n).length) :
    (m.readAll p n)[i] = m.read p i := by
  simp [readAll]

theorem read_writeAll {m : Memory} {p : Pointer} {vs : List Value} {i : Nat}
    (h : p.block < m.blocks.size) (hi : i < vs.length) : (m.writeAll p vs).read p i = vs[i] := by
  rw [read, peek_writeAll m p vs p.block _ h, if_pos ⟨rfl, by omega, by omega⟩,
    Nat.add_sub_cancel_left, List.getElem?_eq_getElem hi, Option.getD_some]

/-- A run of writes is read back from where it was written. -/
theorem readAll_writeAll {m : Memory} {p : Pointer} (vs : List Value)
    (h : p.block < m.blocks.size) : (m.writeAll p vs).readAll p vs.length = vs := by
  apply List.ext_getElem
  · rw [length_readAll]
  · intro i _ hi
    rw [getElem_readAll, read_writeAll h hi]

theorem readAll_congr {m m' : Memory} {p : Pointer} (n : Nat)
    (h : m'.cells p.block = m.cells p.block) : m'.readAll p n = m.readAll p n := by
  unfold readAll
  apply List.map_congr_left
  intro i _
  rw [read, read, peek, peek, h]

/-! ## Texts -/

theorem HoldsText.unique {m : Memory} {p : Pointer} {run other : List Value}
    (h : m.HoldsText p run) (h' : m.HoldsText p other) : run = other := by
  induction run generalizing p other with
  | nil =>
      have hend : (m.read p 0).endsText = true := h
      cases other with
      | nil => rfl
      | cons w rest =>
          obtain ⟨rfl, hw, -⟩ := h'
          rw [hend] at hw
          cases hw
  | cons v run ih =>
      obtain ⟨rfl, hv, hrun⟩ := h
      cases other with
      | nil =>
          have hend : (m.read p 0).endsText = true := h'
          rw [hend] at hv
          cases hv
      | cons w rest =>
          obtain ⟨rfl, -, hrest⟩ := h'
          rw [ih hrun hrest]

theorem HoldsText.textCells_eq {m : Memory} {p : Pointer} {run : List Value}
    (h : m.HoldsText p run) : m.textCells p = run :=
  (m.holdsText_textCells p).unique h

theorem endsText_toCode (c : Char) : (Value.int (Text.toCode c)).endsText = (c == '\x00') := by
  have hcode : (Text.toCode c == 0) = (c == '\x00') := by
    rw [Bool.eq_iff_iff, beq_iff_eq, beq_iff_eq]
    exact Text.toCode_eq_zero_iff
  simpa [Value.endsText, Value.isDefined, Value.toInt64] using hcode

theorem terminated_cons (c : Char) (text : Text) :
    terminated (c :: text) = .int (Text.toCode c) :: terminated text := rfl

@[simp] theorem length_terminated (text : Text) : (terminated text).length = text.length + 1 := by
  simp [terminated]

theorem holdsText_of_readAll {m : Memory} {p : Pointer} {text : Text}
    (h : m.readAll p (text.length + 1) = terminated text) :
    m.HoldsText p (text.untilNull.map fun c => .int (Text.toCode c)) := by
  induction text generalizing p with
  | nil =>
      have hread : m.read p 0 = .int 0 := by simpa [readAll, terminated] using h
      show (m.read p 0).endsText = true
      rw [hread]
      rfl
  | cons c text ih =>
      rw [List.length_cons, readAll_succ, terminated_cons] at h
      obtain ⟨hread, hrest⟩ := List.cons.inj h
      have hends := endsText_toCode c
      by_cases hc : c = '\x00'
      · have hcut : Text.untilNull (c :: text) = [] := by simp [Text.untilNull, hc]
        rw [hcut]
        show (m.read p 0).endsText = true
        rw [hread, hends, beq_iff_eq]
        exact hc
      · have hcut : Text.untilNull (c :: text) = c :: Text.untilNull text := by
          simp [Text.untilNull, hc]
        rw [hcut, List.map_cons]
        exact ⟨hread, by rw [hends, beq_eq_false_iff_ne]; exact hc, ih hrest⟩

/-- Where the cells of a text are, the text is read up to its first null character. -/
theorem textAt_of_readAll {m : Memory} {p : Pointer} {text : Text}
    (h : m.readAll p (text.length + 1) = terminated text) : m.textAt p = text.untilNull := by
  have hdecode : ((fun v : Value => Text.ofCode v.toInt64) ∘ fun c => .int (Text.toCode c)) = id :=
    funext Text.ofCode_toCode
  rw [textAt, (holdsText_of_readAll h).textCells_eq, List.map_map, hdecode, List.map_id]

theorem readAll_writeText {m : Memory} {p : Pointer} (text : Text) (h : p.block < m.blocks.size) :
    (m.writeText p text).readAll p (text.length + 1) = terminated text := by
  have hrun := readAll_writeAll (terminated text) h
  rwa [length_terminated] at hrun

end Memory

end CellMachine
