import CellMachine.Memory.Pointer
import Mathlib.Data.List.Induction
import Mathlib.Logic.Function.Basic
import Mathlib.Order.Bounds.Basic
/-!
# Memory as a total map

Different pointers may reach one cell, and writes may come in any order and leave gaps.  Seen by
block and position, a write is one update of a map that is defined everywhere, so a run of writes
is a fold of updates.  Main statement: a pointer reads the last value that was written at its
position, through whichever pointer, and else what was there at the start.
-/

namespace CellMachine

namespace Pointer

/-- The ways to come by a pointer into one of the first `blocks` blocks. -/
inductive Derived (blocks : Nat) : Pointer → Prop where
  | start {b : BlockId} : b < blocks → Derived blocks { block := b }
  | add {p : Pointer} (n : Nat) : Derived blocks p → Derived blocks (p.add n)
  | move {p q : Pointer} {delta : Int} : Derived blocks p → p.move? delta = some q →
      Derived blocks q
  | ofPair {p : Pointer} {offset : Value} {b : BlockId} : b < blocks →
      ofPair offset (.block b) = some p → Derived blocks p

theorem block_eq_of_move? {p q : Pointer} {delta : Int} (h : p.move? delta = some q) :
    q.block = p.block := by
  unfold move? at h
  split at h
  · rw [← Option.some.inj h]
  · cases h

/-- No pointer arithmetic leaves a block, and every position of a block can be pointed to. -/
theorem derived_iff_block_lt {blocks : Nat} {p : Pointer} :
    p.Derived blocks ↔ p.block < blocks := by
  constructor
  · intro h
    induction h with
    | start hb => exact hb
    | add n _ ih => exact ih
    | move _ hmove ih =>
        rw [block_eq_of_move? hmove]
        exact ih
    | ofPair hb hpair =>
        rw [← Option.some.inj hpair]
        exact hb
  · intro h
    have hadd : p = Pointer.add { block := p.block } p.offset := by
      simp only [add, Nat.zero_add]
    rw [hadd]
    exact .add p.offset (.start h)

end Pointer

/-- A write of a value through a pointer. -/
structure Write where
  pointer : Pointer
  index : Nat
  value : Value

/-- Where the value ends up. -/
def Write.cell (w : Write) : BlockId × Nat := (w.pointer.block, w.pointer.offset + w.index)

namespace Memory

def view (m : Memory) : BlockId × Nat → Value := fun cell => m.peek cell.1 cell.2

def replay (m : Memory) (log : List Write) : Memory :=
  log.foldl (fun m w => m.write w.pointer w.index w.value) m

theorem replay_concat (m : Memory) (log : List Write) (w : Write) :
    m.replay (log ++ [w]) = (m.replay log).write w.pointer w.index w.value := by
  rw [replay, List.foldl_append]
  rfl

theorem size_blocks_replay (m : Memory) (log : List Write) :
    (m.replay log).blocks.size = m.blocks.size := by
  induction log using List.reverseRecOn with
  | nil => rfl
  | append_singleton log w ih => rw [replay_concat, write, size_blocks_poke, ih]

theorem view_write {m : Memory} {p : Pointer} (i : Nat) (v : Value)
    (h : p.block < m.blocks.size) :
    (m.write p i v).view = Function.update m.view (p.block, p.offset + i) v := by
  funext ⟨b, j⟩
  rw [view, write, peek_poke m b _ j v h, Function.update_apply]
  simp only [Prod.mk.injEq]
  rfl

theorem size_write {m : Memory} {p : Pointer} (b : BlockId) (i : Nat) (v : Value)
    (h : p.block < m.blocks.size) :
    (m.write p i v).size b =
      if b = p.block then max (m.size b) (p.offset + i + 1) else m.size b := by
  rw [write, size_poke m b _ v h]
  by_cases hb : b = p.block
  · rw [if_pos hb, if_pos hb, hb]
  · rw [if_neg hb, if_neg hb]

/-! ## The map -/

/-- A map with the writes of a log put into it, one after another. -/
def overlay (map : BlockId × Nat → Value) (log : List Write) : BlockId × Nat → Value :=
  log.foldl (fun map w => Function.update map w.cell w.value) map

theorem overlay_of_forall_ne {map : BlockId × Nat → Value} {log : List Write}
    {cell : BlockId × Nat} (h : ∀ w ∈ log, w.cell ≠ cell) : overlay map log cell = map cell := by
  induction log generalizing map with
  | nil => rfl
  | cons w rest ih =>
      have hrest : ∀ w ∈ rest, w.cell ≠ cell := fun v hv => h v (List.mem_cons_of_mem w hv)
      calc overlay map (w :: rest) cell
          = overlay (Function.update map w.cell w.value) rest cell := rfl
        _ = Function.update map w.cell w.value cell := ih hrest
        _ = map cell := Function.update_of_ne (h w List.mem_cons_self).symm _ _

theorem overlay_last (map : BlockId × Nat → Value) (front : List Write) (w : Write)
    {rest : List Write} (h : ∀ v ∈ rest, v.cell ≠ w.cell) :
    overlay map (front ++ w :: rest) w.cell = w.value := by
  calc overlay map (front ++ w :: rest) w.cell
      = overlay (Function.update (overlay map front) w.cell w.value) rest w.cell := by
        simp only [overlay, List.foldl_append, List.foldl_cons]
    _ = Function.update (overlay map front) w.cell w.value w.cell := overlay_of_forall_ne h
    _ = w.value := Function.update_self _ _ _

/-- The growing blocks behave as a total map. -/
theorem view_replay {m : Memory} {log : List Write}
    (h : ∀ w ∈ log, w.pointer.block < m.blocks.size) :
    (m.replay log).view = overlay m.view log := by
  induction log using List.reverseRecOn with
  | nil => rfl
  | append_singleton log w ih =>
      have hw : w.pointer.block < (m.replay log).blocks.size := by
        rw [size_blocks_replay]
        exact h w (by simp)
      have hlog : (m.replay log).view = overlay m.view log :=
        ih fun v hv => h v (List.mem_append_left [w] hv)
      rw [replay_concat, view_write _ _ hw, hlog, overlay, overlay, List.foldl_append]
      rfl

/-- The lengths that a block needs: the one that it has, and one for each write into it. -/
def extents (m : Memory) (log : List Write) (b : BlockId) : Set Nat :=
  insert (m.size b) {n | ∃ w ∈ log, w.pointer.block = b ∧ n = w.pointer.offset + w.index + 1}

theorem extents_concat (m : Memory) (log : List Write) (w : Write) (b : BlockId) :
    m.extents (log ++ [w]) b =
      if b = w.pointer.block then insert (w.pointer.offset + w.index + 1) (m.extents log b)
      else m.extents log b := by
  ext n
  by_cases hb : b = w.pointer.block
  · subst hb
    simp only [extents, Set.mem_insert_iff, Set.mem_ofPred_eq, List.mem_append, List.mem_singleton,
      or_and_right, exists_or, exists_eq_left, true_and, if_true]
    exact or_rotate.trans or_rotate
  · simp [extents, or_and_right, exists_or, hb, Ne.symm hb]

/-- A block reaches as far as the farthest write into it. -/
theorem isGreatest_size_replay {m : Memory} {log : List Write}
    (h : ∀ w ∈ log, w.pointer.block < m.blocks.size) (b : BlockId) :
    IsGreatest (m.extents log b) ((m.replay log).size b) := by
  induction log using List.reverseRecOn with
  | nil => simp [extents, replay]
  | append_singleton log w ih =>
      have hw : w.pointer.block < (m.replay log).blocks.size := by
        rw [size_blocks_replay]
        exact h w (by simp)
      have hlog : IsGreatest (m.extents log b) ((m.replay log).size b) :=
        ih fun v hv => h v (List.mem_append_left [w] hv)
      rw [replay_concat, size_write b _ _ hw, extents_concat]
      by_cases hb : b = w.pointer.block
      · rw [if_pos hb, if_pos hb, max_comm]
        exact hlog.insert _
      · rw [if_neg hb, if_neg hb]
        exact hlog

/-- Behind any run of writes, a pointer reads the value of the last write at its position; without
one it reads the cell that was there, or undefined where there was none.  A block is as long as it
was, or long enough for the farthest write into it. -/
theorem replay_last_write_wins (m : Memory) (log : List Write)
    (h : ∀ w ∈ log, w.pointer.Derived m.blocks.size) :
    (∀ (p : Pointer) (i : Nat),
      (∀ (front : List Write) (w : Write) (rest : List Write), log = front ++ w :: rest →
        w.cell = (p.block, p.offset + i) → (∀ v ∈ rest, v.cell ≠ (p.block, p.offset + i)) →
          (m.replay log).read p i = w.value) ∧
      ((∀ w ∈ log, w.cell ≠ (p.block, p.offset + i)) →
        (m.replay log).read p i = (m.cells p.block)[p.offset + i]?.getD .undefined)) ∧
    ∀ b : BlockId, IsGreatest (m.extents log b) ((m.replay log).size b) := by
  have hblocks : ∀ w ∈ log, w.pointer.block < m.blocks.size :=
    fun w hw => Pointer.derived_iff_block_lt.mp (h w hw)
  have hread : ∀ (p : Pointer) (i : Nat),
      (m.replay log).read p i = overlay m.view log (p.block, p.offset + i) := by
    intro p i
    rw [← view_replay hblocks]
    rfl
  refine ⟨?_, isGreatest_size_replay hblocks⟩
  intro p i
  rw [hread]
  constructor
  · rintro front w rest rfl hw hrest
    rw [← hw] at hrest ⊢
    exact overlay_last m.view front w hrest
  · intro hnone
    exact overlay_of_forall_ne hnone

/-- Two pointers reach one cell beyond the end of a block; a third is read from values with a
negative offset. -/
theorem replay_last_write_wins_aliased :
    let m : Memory := { blocks := #[#[.int 1, .int 2], #[]] }
    let start : Pointer := { block := 0 }
    let back : Pointer := { block := 0, offset := 1 }
    let other : Pointer := { block := 1 }
    let first : Write := ⟨start.add 3, 1, .int 9⟩
    let second : Write := ⟨back, 3, .null⟩
    let third : Write := ⟨other, 2, .str ['a']⟩
    let log := [first, second, third]
    (start.add 3).move? (-2) = some back ∧ Pointer.ofPair (.int (-5)) (.block 1) = some other ∧
      (m.replay log).read start 4 = .null ∧ (m.replay log).read (start.add 1) 0 = .int 2 ∧
      (m.replay log).read start 3 = .undefined ∧ IsGreatest (m.extents log 0) 5 := by
  intro m start back other first second third log
  have hmove : (start.add 3).move? (-2) = some back := by decide
  have hpair : Pointer.ofPair (.int (-5)) (.block 1) = some other := by decide
  have hstart : start.Derived m.blocks.size := .start (by decide)
  have hback : back.Derived m.blocks.size := .move (.add 3 hstart) hmove
  have hother : other.Derived m.blocks.size := .ofPair (by decide) hpair
  have hlog : ∀ w ∈ log, w.pointer.Derived m.blocks.size := by
    simp only [log, List.forall_mem_cons, List.not_mem_nil, false_implies, implies_true, and_true]
    exact ⟨.add 3 hstart, hback, hother⟩
  obtain ⟨hread, hsize⟩ := replay_last_write_wins m log hlog
  have hfive : (m.replay log).size 0 = 5 := by decide
  refine ⟨hmove, hpair, ?_, ?_, ?_, hfive ▸ hsize 0⟩
  · exact (hread start 4).1 [first] second [third] rfl rfl (by decide)
  · exact (hread (start.add 1) 0).2 (by decide)
  · exact (hread start 3).2 (by decide)

end Memory

end CellMachine
