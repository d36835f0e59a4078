import CellMachine.Double.Shortest
import CellMachine.Value
/-!
# Memory

Memory is a table of blocks, each a run of cells that grows as it is written.  Every cell reads,
unwritten ones as undefined, and a write beyond the end leaves a gap of undefined cells.  The main
statements say what a write does to the view by block and position: `peek_poke`, `size_poke`,
`cells_alloc`.
-/

namespace CellMachine

/-- The blocks that exist, by their identity. -/
structure Memory where
  blocks : Array (Array Value) := #[]
deriving DecidableEq

namespace Memory

/-- The written cells of a block. -/
def cells (m : Memory) (b : BlockId) : Array Value := m.blocks[b]?.getD #[]

/-- How many cells a block has, gaps included. -/
def size (m : Memory) (b : BlockId) : Nat := (m.cells b).size

/-- The cell at a position of a block. -/
def peek (m : Memory) (b : BlockId) (i : Nat) : Value := (m.cells b)[i]?.getD .undefined

/-- A run of cells with one of them replaced, extended up to it if need be. -/
def writeCell (run : Array Value) (i : Nat) (v : Value) : Array Value :=
  if i < run.size then run.setIfInBounds i v
  else (run ++ Array.replicate (i - run.size) Value.undefined).push v

/-- Writes the cell at a position of a block. -/
def poke (m : Memory) (b : BlockId) (i : Nat) (v : Value) : Memory :=
  { m with blocks := m.blocks.modify b (writeCell · i v) }

/-- Adds a block with the given cells. -/
def alloc (m : Memory) (run : Array Value) : BlockId × Memory :=
  (m.blocks.size, { m with blocks := m.blocks.push run })

/-- The text that stands for a value; a block shows how many cells it has. -/
def display (m : Memory) : Value → Text
  | .int n => Numeral.signed n.toInt
  | .float x => x.display
  | .str text => text
  | .block b => "(store:".toList ++ Numeral.digits 10 (m.size b) ++ [')']
  | .null => "(null)".toList
  | .undefined => []

theorem size_writeCell (run : Array Value) (i : Nat) (v : Value) :
    (writeCell run i v).size = max run.size (i + 1) := by
  simp only [writeCell]
  split <;> simp <;> omega

theorem getElem?_writeCell (run : Array Value) (i j : Nat) (v : Value) :
    (writeCell run i v)[j]?.getD .undefined = if j = i then v else run[j]?.getD .undefined := by
  unfold writeCell
  by_cases hi : i < run.size
  · rw [if_pos hi, Array.getElem?_setIfInBounds]
    by_cases hj : i = j
    · subst hj
      simp [hi]
    · simp [hj, Ne.symm hj]
  · have hsize : (run ++ Array.replicate (i - run.size) Value.undefined).size = i := by
      simp
      omega
    rw [if_neg hi, Array.getElem?_push, hsize]
    by_cases hj : j = i
    · simp [hj]
    · rw [if_neg hj, if_neg hj, Array.getElem?_append]
      split
      · rfl
      · next hlarge =>
          have hnone : run[j]? = none := Array.getElem?_eq_none (by omega)
          rw [hnone, Array.getElem?_replicate]
          split <;> rfl

theorem cells_poke (m : Memory) (b c : BlockId) (i : Nat) (v : Value) :
    (m.poke b i v).cells c =
      if c = b ∧ b < m.blocks.size then writeCell (m.cells b) i v else m.cells c := by
  unfold poke cells
  rw [Array.getElem?_modify]
  by_cases hc : b = c
  · subst hc
    by_cases hb : b < m.blocks.size
    · simp [hb]
    · simp [hb]
  · rw [if_neg hc, if_neg (fun h => hc h.1.symm)]

@[simp] theorem size_blocks_poke (m : Memory) (b : BlockId) (i : Nat) (v : Value) :
    (m.poke b i v).blocks.size = m.blocks.size := by
  simp [poke]

/-- A write is seen at its own position only. -/
theorem peek_poke (m : Memory) {b : BlockId} (c : BlockId) (i j : Nat) (v : Value)
    (h : b < m.blocks.size) :
    (m.poke b i v).peek c j = if c = b ∧ j = i then v else m.peek c j := by
  simp only [peek, cells_poke, h, and_true]
  by_cases hc : c = b
  · simp [hc, getElem?_writeCell]
  · simp [hc]

/-- A write extends its block up to its own position, and no other block. -/
theorem size_poke (m : Memory) {b : BlockId} (c : BlockId) (i : Nat) (v : Value)
    (h : b < m.blocks.size) :
    (m.poke b i v).size c = if c = b then max (m.size b) (i + 1) else m.size c := by
  simp only [size, cells_poke, h, and_true]
  by_cases hc : c = b
  · simp [hc, size_writeCell]
  · simp [hc]

/-- A new block has the cells that it was given, and no other block changes. -/
theorem cells_alloc (m : Memory) (run : Array Value) (c : BlockId) :
    (m.alloc run).2.cells c = if c = m.blocks.size then run else m.cells c := by
  simp only [alloc, cells, Array.getElem?_push]
  split <;> rfl

end Memory

end CellMachine
