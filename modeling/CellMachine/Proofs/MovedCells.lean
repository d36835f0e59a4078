import CellMachine.Machine.Library
import CellMachine.Proofs.Frame
import CellMachine.Proofs.Texts
/-!
# What a move of cells leaves in memory

A move reads all cells of its source before it writes the first one, so the two ranges may overlap
either way, and the source may run past the end of its block, which the move itself may extend.
Main statement: the target then holds what the source held, all other cells are unchanged, and the
block of the target ends where it did or behind the last cell written.
-/

namespace CellMachine

namespace Memory

/-- A count below zero moves as many cells as zero does. -/
theorem moveCells_eq (m : Memory) (target source : Pointer) (count : Int64) :
    m.moveCells target source count = m.writeAll target (m.readAll source count.toInt.toNat) := rfl

end Memory

namespace Action

theorem memcpy_apply (target source : Pointer) (count : Int64) (m : Machine) :
    memcpy target source count m =
      some (.ok target, { m with memory := m.memory.moveCells target source count }) := rfl

/-- A move returns its target.  Each of its `count` cells is then as the cell of the source was
before, undefined where there was none.  All other cells are read as before; the block of the target
reaches as far as it did or to the end of the moved cells, and the other blocks are the same.  A
count that is not positive changes nothing. -/
theorem memcpy_moves_cells (m : Machine) (target source : Pointer) (count : Int64)
    (h : target.block < m.memory.blocks.size) :
    ∃ memory : Memory,
      memcpy target source count m = some (.ok target, { m with memory := memory }) ∧
      memory.blocks.size = m.memory.blocks.size ∧
      (∀ i : Nat, i < count.toInt → memory.read target i =
        (m.memory.cells source.block)[source.offset + i]?.getD .undefined) ∧
      (∀ (b : BlockId) (j : Nat),
        ¬(b = target.block ∧ target.offset ≤ j ∧ j < target.offset + count.toInt) →
          memory.peek b j = m.memory.peek b j) ∧
      memory.size target.block =
        (if 0 < count.toInt then
          max (m.memory.size target.block) (target.offset + count.toInt.toNat)
        else m.memory.size target.block) ∧
      (∀ b ≠ target.block, memory.cells b = m.memory.cells b) ∧
      (count.toInt ≤ 0 → memory = m.memory) := by
  refine ⟨_, memcpy_apply target source count m, ?_⟩
  rw [Memory.moveCells_eq]
  -- From here on only the run of old cells matters, and that there are `count` of them.
  have hlength := Memory.length_readAll m.memory source count.toInt.toNat
  have hcell : ∀ i, (hi : i < (m.memory.readAll source count.toInt.toNat).length) →
      (m.memory.readAll source count.toInt.toNat)[i] = m.memory.read source i :=
    fun i hi => Memory.getElem_readAll hi
  generalize m.memory.readAll source count.toInt.toNat = run at hlength hcell ⊢
  refine ⟨Memory.size_blocks_writeAll _ _ _, ?_, ?_, ?_, ?_, ?_⟩
  · intro i hi
    have hlt : i < run.length := by omega
    rw [Memory.read_writeAll h hlt, hcell i hlt]
    rfl
  · intro b j houtside
    apply Memory.peek_writeAll_of_outside h
    rintro ⟨hblock, hfrom, hto⟩
    exact houtside ⟨hblock, hfrom, by omega⟩
  · have hpos : 0 < count.toInt.toNat ↔ 0 < count.toInt := by omega
    rw [Memory.size_writeAll_eq_ite h, hlength]
    exact if_congr hpos rfl rfl
  · intro b hb
    exact Memory.cells_writeAll_of_ne run hb
  · intro hcount
    have hnil : run = [] := List.length_eq_zero_iff.mp (by omega)
    rw [hnil]
    rfl

/-- Six cells move up by one within a block of three.  The source runs past the end of the block,
the target too. -/
theorem memcpy_moves_cells_overlapping :
    let run : Array Value := #[.int 1, .null, .str ['x']]
    let m : Machine := { memory := { blocks := #[run, #[.int 7]] } }
    let source : Pointer := { block := 0 }
    let target : Pointer := { block := 0, offset := 1 }
    target.block < m.memory.blocks.size ∧
      ∃ memory : Memory,
        memcpy target source 6 m = some (.ok target, { m with memory := memory }) ∧
        memory.read source 0 = .int 1 ∧ memory.read source 1 = .int 1 ∧
        memory.read source 2 = .null ∧ memory.read source 3 = .str ['x'] ∧
        memory.read source 4 = .undefined ∧ memory.size 0 = 7 ∧ memory.cells 1 = #[.int 7] := by
  intro run m source target
  have hblock : target.block < m.memory.blocks.size := by decide
  obtain ⟨memory, hmemcpy, -, hcells, hother, hsize, hblocks, -⟩ :=
    memcpy_moves_cells m target source 6 hblock
  refine ⟨hblock, memory, hmemcpy, hother 0 0 (by decide), hcells 0 (by decide),
    hcells 1 (by decide), hcells 2 (by decide), hcells 3 (by decide), hsize, hblocks 1 (by decide)⟩

end Action

end CellMachine
