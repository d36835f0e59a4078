import CellMachine.Proofs.Texts
import CellMachine.Proofs.Varargs
/-!
# Tables of pointers

A pointer in memory takes a slot of two cells, its offset and its block.  Slots of a table that are
not the same share no cell, so a store into one leaves the pair of every other one whole.  Main
statement: a slot holds the pointer that was last stored in it, whatever the pointers point to, and
all cells outside of the slots are unchanged.
-/

namespace CellMachine

@[simp] theorem Pointer.length_pairOf (p : Option Pointer) : (pairOf p).length = 2 := by
  cases p <;> rfl

/-- A pointer, or null, that is put into the slot at an index of a table. -/
structure SlotStore where
  index : Nat
  pointer : Option Pointer
deriving DecidableEq

/-- Two slots have no cell in common. -/
def SlotsDisjoint (i j : Nat) : Prop := i + 2 ≤ j ∨ j + 2 ≤ i

namespace Memory

/-- Performs stores into one table, the first one first. -/
def storePointers (m : Memory) (table : Pointer) (log : List SlotStore) : Memory :=
  log.foldl (fun m s => m.storePointer table s.index s.pointer) m

variable {m : Memory} {table : Pointer}

/-! ## One store -/

@[simp] theorem size_blocks_storePointer (m : Memory) (table : Pointer) (i : Nat)
    (p : Option Pointer) : (m.storePointer table i p).blocks.size = m.blocks.size :=
  size_blocks_writeAll _ _ _

theorem peek_storePointer_of_outside {i j : Nat} {b : BlockId} (p : Option Pointer)
    (h : table.block < m.blocks.size)
    (houtside : b = table.block → j ≠ table.offset + i ∧ j ≠ table.offset + i + 1) :
    (m.storePointer table i p).peek b j = m.peek b j := by
  have hslot : (table.add i).block < m.blocks.size := h
  apply peek_writeAll_of_outside hslot
  rintro ⟨hb, hfrom, hto⟩
  have hoffset : (table.add i).offset = table.offset + i := rfl
  have hne := houtside hb
  rw [Pointer.length_pairOf] at hto
  omega

theorem loadPointer_storePointer_same {i : Nat} {p : Option Pointer}
    (h : table.block < m.blocks.size) (hp : ∀ q ∈ p, q.offset < 2 ^ 63) :
    (m.storePointer table i p).loadPointer table i = p := by
  obtain ⟨offset, tail, hpair, hpointer, -, -⟩ := Pointer.exists_pairOf hp
  have hslot : (table.add i).block < m.blocks.size := h
  have hread : ∀ (k : Nat) (v : Value), [offset, tail][k]? = some v →
      (m.storePointer table i p).read table (i + k) = v := by
    intro k v hv
    obtain ⟨hk, hget⟩ := List.getElem?_eq_some_iff.mp hv
    rw [← read_add, storePointer, hpair, read_writeAll hslot hk, hget]
  rw [loadPointer, hread 1 tail rfl]
  exact (congrArg (Pointer.ofPair · tail) (hread 0 offset rfl)).trans hpointer

/-- A store does not tear the pair of another slot. -/
theorem loadPointer_storePointer_disjoint {i j : Nat} (p : Option Pointer)
    (h : table.block < m.blocks.size) (hij : SlotsDisjoint i j) :
    (m.storePointer table i p).loadPointer table j = m.loadPointer table j := by
  have hread : ∀ k < 2, (m.storePointer table i p).read table (j + k) = m.read table (j + k) := by
    intro k hk
    apply peek_storePointer_of_outside p h
    unfold SlotsDisjoint at hij
    omega
  exact congrArg₂ Pointer.ofPair (hread 0 (by omega)) (hread 1 (by omega))

/-! ## Any number of stores -/

variable {log : List SlotStore}

theorem storePointers_append (m : Memory) (table : Pointer) (front rest : List SlotStore) :
    m.storePointers table (front ++ rest) =
      (m.storePointers table front).storePointers table rest :=
  List.foldl_append

@[simp] theorem size_blocks_storePointers (m : Memory) (table : Pointer) (log : List SlotStore) :
    (m.storePointers table log).blocks.size = m.blocks.size := by
  induction log generalizing m with
  | nil => rfl
  | cons s rest ih => exact (ih _).trans (size_blocks_storePointer m table s.index s.pointer)

theorem peek_storePointers_of_outside {b : BlockId} {j : Nat} (h : table.block < m.blocks.size)
    (houtside : ∀ s ∈ log, b = table.block →
      j ≠ table.offset + s.index ∧ j ≠ table.offset + s.index + 1) :
    (m.storePointers table log).peek b j = m.peek b j := by
  induction log generalizing m with
  | nil => rfl
  | cons s rest ih =>
      have hnext : table.block < (m.storePointer table s.index s.pointer).blocks.size := by
        rwa [size_blocks_storePointer]
      calc (m.storePointers table (s :: rest)).peek b j
          = (m.storePointer table s.index s.pointer).peek b j :=
            ih hnext fun t ht => houtside t (List.mem_cons_of_mem s ht)
        _ = m.peek b j := peek_storePointer_of_outside _ h (houtside s List.mem_cons_self)

theorem loadPointer_storePointers_disjoint {i : Nat} (h : table.block < m.blocks.size)
    (hlog : ∀ s ∈ log, SlotsDisjoint s.index i) :
    (m.storePointers table log).loadPointer table i = m.loadPointer table i := by
  induction log generalizing m with
  | nil => rfl
  | cons s rest ih =>
      have hnext : table.block < (m.storePointer table s.index s.pointer).blocks.size := by
        rwa [size_blocks_storePointer]
      calc (m.storePointers table (s :: rest)).loadPointer table i
          = (m.storePointer table s.index s.pointer).loadPointer table i :=
            ih hnext fun t ht => hlog t (List.mem_cons_of_mem s ht)
        _ = m.loadPointer table i :=
            loadPointer_storePointer_disjoint _ h (hlog s List.mem_cons_self)

/-- The last store into a slot decides what is loaded from it. -/
theorem loadPointer_storePointers_last {front rest : List SlotStore} {s : SlotStore}
    (h : table.block < m.blocks.size) (hs : ∀ p ∈ s.pointer, p.offset < 2 ^ 63)
    (hrest : ∀ t ∈ rest, SlotsDisjoint t.index s.index) :
    (m.storePointers table (front ++ s :: rest)).loadPointer table s.index = s.pointer := by
  have hfront : table.block < (m.storePointers table front).blocks.size := by
    rwa [size_blocks_storePointers]
  have hstored : table.block <
      ((m.storePointers table front).storePointer table s.index s.pointer).blocks.size := by
    rwa [size_blocks_storePointer]
  calc (m.storePointers table (front ++ s :: rest)).loadPointer table s.index
      = (((m.storePointers table front).storePointer table s.index s.pointer).storePointers
          table rest).loadPointer table s.index := by
        rw [storePointers_append]
        rfl
    _ = ((m.storePointers table front).storePointer table s.index s.pointer).loadPointer table
          s.index := loadPointer_storePointers_disjoint hstored hrest
    _ = s.pointer := loadPointer_storePointer_same hfront hs

/-- A pointer, or null, that is stored at an index of a table is loaded from there.  Let pointers be
stored into a table at indices that are equal or at least two apart.  Each slot then holds the
pointer that was stored in it last, and every cell that is in none of these slots is read as
before. -/
theorem slot_holds_last_store (m : Memory) (table : Pointer) (log : List SlotStore)
    (h : table.block < m.blocks.size)
    (hoffset : ∀ s ∈ log, ∀ p ∈ s.pointer, p.offset < 2 ^ 63)
    (hapart : log.Pairwise fun s t =>
      s.index = t.index ∨ s.index + 2 ≤ t.index ∨ t.index + 2 ≤ s.index) :
    (∀ (i : Nat) (p : Option Pointer), (∀ q ∈ p, q.offset < 2 ^ 63) →
      (m.storePointer table i p).loadPointer table i = p) ∧
    (∀ (front : List SlotStore) (s : SlotStore) (rest : List SlotStore),
      log = front ++ s :: rest → (∀ t ∈ rest, t.index ≠ s.index) →
        (m.storePointers table log).loadPointer table s.index = s.pointer) ∧
    (∀ (b : BlockId) (j : Nat),
      (∀ s ∈ log, (b, j) ≠ (table.block, table.offset + s.index) ∧
        (b, j) ≠ (table.block, table.offset + s.index + 1)) →
      (m.storePointers table log).peek b j = m.peek b j) := by
  refine ⟨?_, ?_, ?_⟩
  · intro i p hp
    exact loadPointer_storePointer_same h hp
  · rintro front s rest rfl hlast
    have hbehind := (List.pairwise_cons.mp (List.pairwise_append.mp hapart).2.1).1
    refine loadPointer_storePointers_last h (hoffset s (by simp)) ?_
    intro t ht
    have hne := hlast t ht
    rcases hbehind t ht with heq | hfar
    · exact absurd heq.symm hne
    · exact hfar.symm
  · intro b j houtside
    apply peek_storePointers_of_outside h
    rintro s hs rfl
    exact ⟨fun heq => (houtside s hs).1 (by rw [heq]), fun heq => (houtside s hs).2 (by rw [heq])⟩

/-- A table begins at the second cell of a block of one cell and grows.  Its first slot points to
itself at first, and later as far as an offset goes; between the two a null is stored. -/
theorem slot_holds_last_store_cyclic :
    let m : Memory := { blocks := #[#[.int 7], #[.str ['x']]] }
    let table : Pointer := { block := 0, offset := 1 }
    let far : Pointer := { block := 1, offset := 9223372036854775807 }
    let cyclic : SlotStore := ⟨0, some table⟩
    let absent : SlotStore := ⟨5, none⟩
    let last : SlotStore := ⟨0, some far⟩
    let log : List SlotStore := [cyclic, absent, last]
    table.block < m.blocks.size ∧ (∀ s ∈ log, ∀ p ∈ s.pointer, p.offset < 2 ^ 63) ∧
      (log.Pairwise fun s t =>
        s.index = t.index ∨ s.index + 2 ≤ t.index ∨ t.index + 2 ≤ s.index) ∧
      (m.storePointer table 0 (some table)).loadPointer table 0 = some table ∧
      (m.storePointers table log).loadPointer table 0 = some far ∧
      (m.storePointers table log).loadPointer table 5 = none ∧
      (m.storePointers table log).peek 0 0 = .int 7 ∧
      (m.storePointers table log).peek 0 3 = .undefined := by
  intro m table far cyclic absent last log
  have hblock : table.block < m.blocks.size := by decide
  have hoffset : ∀ s ∈ log, ∀ p ∈ s.pointer, p.offset < 2 ^ 63 := by decide
  have hapart : log.Pairwise fun s t =>
      s.index = t.index ∨ s.index + 2 ≤ t.index ∨ t.index + 2 ≤ s.index := by decide
  obtain ⟨hsame, hlast, hother⟩ := slot_holds_last_store m table log hblock hoffset hapart
  refine ⟨hblock, hoffset, hapart, hsame 0 (some table) (by decide), ?_, ?_, ?_, ?_⟩
  · exact hlast [cyclic, absent] last [] rfl (by decide)
  · exact hlast [cyclic] absent [last] rfl (by decide)
  · exact hother 0 0 (by decide)
  · exact hother 0 3 (by decide)

end Memory

end CellMachine
