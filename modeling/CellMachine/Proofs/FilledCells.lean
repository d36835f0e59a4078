import CellMachine.Machine.Library
import CellMachine.Proofs.Frame
import CellMachine.Proofs.Texts
import Mathlib.Algebra.Group.Int.Defs
/-!
# What a fill leaves in memory

A fill sets one cell fewer than its count says, and none if the count is one or less.  The number of
cells is found by a subtraction in 64 bits.  Main statement: only the least count is out of reach
of that subtraction; with every other one the cells are set, all other cells are unchanged, and the
block ends where it did or behind the last cell set.
-/

namespace CellMachine

namespace Memory

theorem fill_of_ne_minValue {count : Int64} (m : Memory) (target : Pointer) (n : Int64)
    (h : count ≠ Int64.minValue) :
    m.fill target n count =
      some (m.writeAll target (List.replicate (count.toInt - 1).toNat (.int n))) := by
  rw [fill, if_neg h, toNatClampNeg_sub_one h]

end Memory

namespace Action

theorem memset_of_fill {m : Machine} {memory : Memory} {target : Pointer} {n count : Int64}
    (h : m.memory.fill target n count = some memory) :
    memset target n count m = some (.ok target, { m with memory := memory }) := by
  simp only [memset, bind_apply, updateMemory, h, Option.map_some, pure_apply]

theorem memset_eq_none {m : Machine} {target : Pointer} {n count : Int64}
    (h : m.memory.fill target n count = none) : memset target n count m = none := by
  simp only [memset, bind_apply, updateMemory, h, Option.map_none]

/-- Unless its count is the least integer a fill returns its target, and with that count it has no
result.  It sets the first `count - 1` cells to the integer, none if the count is at most one.  All
other cells are read as before; the block of the target reaches as far as it did or to the end of
the cells set, and the other blocks are the same. -/
theorem memset_fills_cells (m : Machine) (target : Pointer) (n count : Int64)
    (h : target.block < m.memory.blocks.size) :
    (memset target n count m = none ↔ count.toInt = -2 ^ 63) ∧
    (count.toInt ≠ -2 ^ 63 → ∃ memory : Memory,
      memset target n count m = some (.ok target, { m with memory := memory }) ∧
      memory.blocks.size = m.memory.blocks.size ∧
      (∀ i : Nat, i < count.toInt - 1 → memory.read target i = .int n) ∧
      (∀ (b : BlockId) (j : Nat),
        ¬(b = target.block ∧ target.offset ≤ j ∧ j < target.offset + (count.toInt - 1)) →
          memory.peek b j = m.memory.peek b j) ∧
      memory.size target.block =
        (if 1 < count.toInt then
          max (m.memory.size target.block) (target.offset + (count.toInt - 1).toNat)
        else m.memory.size target.block) ∧
      (∀ b ≠ target.block, memory.cells b = m.memory.cells b) ∧
      (count.toInt ≤ 1 → memory = m.memory)) := by
  have hleast : count = Int64.minValue ↔ count.toInt = -2 ^ 63 := by
    rw [← Int64.toInt_inj, Int64.toInt_minValue]
  refine ⟨⟨?_, ?_⟩, ?_⟩
  · intro hnone
    rw [← hleast]
    by_contra hne
    rw [memset_of_fill (Memory.fill_of_ne_minValue m.memory target n hne)] at hnone
    cases hnone
  · intro hmin
    exact memset_eq_none (if_pos (hleast.mpr hmin))
  · intro hnot
    have hne : count ≠ Int64.minValue := fun hmin => hnot (hleast.mp hmin)
    refine ⟨_, memset_of_fill (Memory.fill_of_ne_minValue m.memory target n hne), ?_⟩
    have hlength : (List.replicate (count.toInt - 1).toNat (Value.int n)).length =
        (count.toInt - 1).toNat := List.length_replicate
    refine ⟨Memory.size_blocks_writeAll _ _ _, ?_, ?_, ?_, ?_, ?_⟩
    · intro i hi
      have hlt : i < (List.replicate (count.toInt - 1).toNat (Value.int n)).length := by omega
      rw [Memory.read_writeAll h hlt, List.getElem_replicate]
    · intro b j houtside
      apply Memory.peek_writeAll_of_outside h
      rintro ⟨hblock, hfrom, hto⟩
      exact houtside ⟨hblock, hfrom, by omega⟩
    · have hpos : 0 < (count.toInt - 1).toNat ↔ 1 < count.toInt := by omega
      rw [Memory.size_writeAll_eq_ite h, hlength]
      exact if_congr hpos rfl rfl
    · intro b hb
      exact Memory.cells_writeAll_of_ne _ hb
    · intro hcount
      have hnone : (count.toInt - 1).toNat = 0 := by omega
      rw [hnone]
      rfl

/-- A count of four sets three cells, the last of them behind the end of the block; a count next to
the least one sets none. -/
theorem memset_fills_cells_growing :
    let m : Machine := { memory := { blocks := #[#[.int 1, .null, .str ['x']], #[.int 7]] } }
    let target : Pointer := { block := 0, offset := 1 }
    target.block < m.memory.blocks.size ∧
      (∃ memory : Memory,
        memset target 9 4 m = some (.ok target, { m with memory := memory }) ∧
        memory.read target 0 = .int 9 ∧ memory.read target 2 = .int 9 ∧
        memory.peek 0 0 = .int 1 ∧ memory.peek 0 4 = .undefined ∧ memory.size 0 = 4 ∧
        memory.cells 1 = #[.int 7]) ∧
      memset target 9 (-9223372036854775807) m = some (.ok target, m) ∧
      memset target 9 Int64.minValue m = none := by
  intro m target
  have hblock : target.block < m.memory.blocks.size := by decide
  obtain ⟨memory, hmemset, -, hcells, hother, hsize, hblocks, -⟩ :=
    (memset_fills_cells m target 9 4 hblock).2 (by decide)
  obtain ⟨same, hleast, -, -, -, -, -, hsame⟩ :=
    (memset_fills_cells m target 9 (-9223372036854775807) hblock).2 (by decide)
  rw [hsame (by decide)] at hleast
  refine ⟨hblock, ⟨memory, hmemset, hcells 0 (by decide), hcells 2 (by decide),
    hother 0 0 (by decide), hother 0 4 (by decide), hsize, hblocks 1 (by decide)⟩, hleast, ?_⟩
  exact (memset_fills_cells m target 9 Int64.minValue hblock).1.mpr (by decide)

end Action

end CellMachine
