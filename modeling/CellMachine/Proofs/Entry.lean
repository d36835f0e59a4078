import CellMachine.Launch.Entry
import CellMachine.Proofs.Frame
import CellMachine.Proofs.Texts
import CellMachine.Proofs.Varargs
/-!
# Where the command line lies

Packing a command line adds a block for each argument, then the table of pointers, then the stack.
Main statements: `argPointer_pack`, each entry of the table points to the block of its argument, and
`spells_pack`, which is where the argument stands.
-/

namespace CellMachine

namespace Memory

/-! ## Texts that stand in a block -/

/-- The cells of the text stand at the pointer, with a terminator behind them. -/
structure Spells (m : Memory) (p : Pointer) (text : Text) : Prop where
  block_lt : p.block < m.blocks.size
  readAll_eq : m.readAll p (text.length + 1) = terminated text

theorem Spells.textAt_eq {m : Memory} {p : Pointer} {text : Text} (h : m.Spells p text) :
    m.textAt p = text.untilNull :=
  textAt_of_readAll h.readAll_eq

/-- Each character of the text that is read back stands in its cell. -/
theorem Spells.read_eq {m : Memory} {p : Pointer} {text : Text} {i : Nat} {c : Char}
    (h : m.Spells p text) (hc : (m.textAt p)[i]? = some c) : m.read p i = .int (Text.toCode c) := by
  rw [h.textAt_eq, Text.untilNull] at hc
  obtain ⟨hi, -⟩ := List.getElem?_eq_some_iff.mp hc
  obtain ⟨rest, hrest⟩ := List.takeWhile_prefix (l := text) (· ≠ '\x00')
  have htext : text[i]? = some c := by
    rw [← hrest, List.getElem?_append_left hi, hc]
  have hlt : i < text.length := (List.getElem?_eq_some_iff.mp htext).1
  have hcell : (m.readAll p (text.length + 1))[i]? = (Memory.terminated text)[i]? := by
    rw [h.readAll_eq]
  rw [terminated, List.getElem?_append_left (by simpa using hlt), List.getElem?_map, htext] at hcell
  simpa [readAll, Nat.lt_succ_of_lt hlt] using hcell

theorem readAll_of_cells_eq {m : Memory} {p : Pointer} {run : List Value} (hstart : p.offset = 0)
    (h : m.cells p.block = run.toArray) : m.readAll p run.length = run := by
  apply List.ext_getElem
  · rw [length_readAll]
  · intro i _ hi
    simp [readAll, read, peek, h, hstart, hi]

/-- The blocks of `m` from `start` on are in `m'` too, with the same cells. -/
structure Keeps (start : Nat) (m m' : Memory) : Prop where
  size_le : m.blocks.size ≤ m'.blocks.size
  cells_eq : ∀ b, start ≤ b → b < m.blocks.size → m'.cells b = m.cells b

theorem Keeps.trans {start : Nat} {m m₁ m₂ : Memory} (h : m.Keeps start m₁)
    (h' : m₁.Keeps start m₂) : m.Keeps start m₂ where
  size_le := Nat.le_trans h.size_le h'.size_le
  cells_eq b hstart hb := by
    rw [h'.cells_eq b hstart (Nat.lt_of_lt_of_le hb h.size_le), h.cells_eq b hstart hb]

theorem keeps_alloc (start : Nat) (m : Memory) (run : Array Value) :
    m.Keeps start (m.alloc run).2 where
  size_le := by simp [alloc]
  cells_eq b _ hb := by rw [cells_alloc, if_neg (Nat.ne_of_lt hb)]

theorem keeps_writeAll {start : Nat} {p : Pointer} (m : Memory) (vs : List Value)
    (h : p.block < start) : m.Keeps start (m.writeAll p vs) where
  size_le := Nat.le_of_eq (size_blocks_writeAll m p vs).symm
  cells_eq _ hb _ := cells_writeAll_of_ne vs (Nat.ne_of_gt (Nat.lt_of_lt_of_le h hb))

theorem Spells.of_keeps {start : Nat} {m m' : Memory} {p : Pointer} {text : Text}
    (h : m.Spells p text) (hkeeps : m.Keeps start m') (hstart : start ≤ p.block) :
    m'.Spells p text where
  block_lt := Nat.lt_of_lt_of_le h.block_lt hkeeps.size_le
  readAll_eq := by
    rw [readAll_congr _ (hkeeps.cells_eq p.block hstart h.block_lt), h.readAll_eq]

theorem spells_allocText (m : Memory) (text : Text) :
    (m.allocText text).2.Spells (m.allocText text).1 text where
  block_lt := by simp [allocText, alloc]
  readAll_eq := by
    have hcells : (m.allocText text).2.cells (m.allocText text).1.block =
        (terminated text).toArray := by
      rw [allocText, cells_alloc]
      exact if_pos rfl
    have hrun := readAll_of_cells_eq rfl hcells
    rwa [length_terminated] at hrun

end Memory

/-! ## The table of pointers -/

/-- A table of pointers is read by the pair. -/
theorem Pointer.ofPair_flatMap_pairOf {ps : List (Option Pointer)}
    (h : ∀ p ∈ ps, ∀ q ∈ p, q.offset < 2 ^ 63) (i : Nat) :
    ofPair ((ps.flatMap pairOf)[2 * i]?.getD .undefined)
      ((ps.flatMap pairOf)[2 * i + 1]?.getD .undefined) = ps[i]?.join := by
  induction ps generalizing i with
  | nil => rfl
  | cons p ps ih =>
      obtain ⟨offset, tail, hpair, hpointer, -, -⟩ := exists_pairOf (h p List.mem_cons_self)
      rw [List.flatMap_cons, hpair]
      cases i with
      | zero => exact hpointer
      | succ i =>
          have hnext : 2 * (i + 1) = 2 * i + 2 := by omega
          rw [hnext]
          exact ih (fun q hq => h q (List.mem_cons_of_mem p hq)) i

namespace Entry

theorem argPointer_congr {entry : Entry} {m m' : Memory}
    (h : m'.cells entry.argv.block = m.cells entry.argv.block) (i : Nat) :
    entry.argPointer m' i = entry.argPointer m i := by
  simp only [argPointer, Memory.loadPointer, Memory.read, Memory.peek, h]

theorem argPointer_of_keeps {entry : Entry} {start : Nat} {m m' : Memory} (h : m.Keeps start m')
    (hstart : start ≤ entry.argv.block) (hargv : entry.argv.block < m.blocks.size) (i : Nat) :
    entry.argPointer m' i = entry.argPointer m i :=
  argPointer_congr (h.cells_eq entry.argv.block hstart hargv) i

/-- The pointers to `count` blocks from `start` on, and null. -/
def table (start count : Nat) : List (Option Pointer) :=
  (List.range' start count).map (fun b => some { block := b }) ++ [none]

theorem allocTexts_eq (m : Memory) (texts : List Text) :
    allocTexts m texts =
      ((List.range' m.blocks.size texts.length).map fun b => { block := b },
        { blocks :=
            m.blocks ++ (texts.map fun text => (Memory.terminated text).toArray).toArray }) := by
  induction texts generalizing m with
  | nil => simp [allocTexts]
  | cons text rest ih =>
      rw [allocTexts, ih]
      simp [Memory.allocText, Memory.alloc, List.range'_succ]

/-- Packing adds a block for each argument, the table and the stack. -/
theorem pack_eq (m : Memory) (args : List Text) (stackCells : Nat) :
    pack m args stackCells =
      ({ stack := { block := m.blocks.size + args.length + 1 }, argc := args.length
         argv := { block := m.blocks.size + args.length } },
        { blocks := m.blocks ++ (args.map fun text => (Memory.terminated text).toArray).toArray ++
            #[((table m.blocks.size args.length).flatMap Pointer.pairOf).toArray,
              Array.replicate stackCells (.int 0)] }) := by
  rw [pack, allocTexts_eq]
  simp only [Memory.alloc, table]
  simp
  exact ⟨(Nat.add_assoc _ _ _).symm, rfl⟩

section Pack

variable (m : Memory) (args : List Text) (stackCells : Nat)

@[simp] theorem argc_pack : (pack m args stackCells).1.argc = args.length := rfl

theorem argv_pack :
    (pack m args stackCells).1.argv = { block := m.blocks.size + args.length } := by
  rw [pack_eq]

theorem stack_pack :
    (pack m args stackCells).1.stack = { block := m.blocks.size + args.length + 1 } := by
  rw [pack_eq]

theorem size_blocks_pack :
    (pack m args stackCells).2.blocks.size = m.blocks.size + args.length + 2 := by
  rw [pack_eq]
  simp only [Array.size_append, List.size_toArray, List.length_map, List.length_cons,
    List.length_nil]

theorem cells_argv_pack :
    (pack m args stackCells).2.cells (m.blocks.size + args.length) =
      ((table m.blocks.size args.length).flatMap Pointer.pairOf).toArray := by
  rw [pack_eq, Memory.cells, Array.getElem?_append_right (by simp)]
  simp

/-- The table points to the blocks of the arguments, in order, and is null behind them. -/
theorem argPointer_pack (i : Nat) :
    (pack m args stackCells).1.argPointer (pack m args stackCells).2 i =
      if i < args.length then some { block := m.blocks.size + i } else none := by
  have hoffsets : ∀ p ∈ table m.blocks.size args.length, ∀ q ∈ p, q.offset < 2 ^ 63 := by
    intro p hp q hq
    rcases List.mem_append.mp hp with hblock | hnull
    · obtain ⟨b, -, rfl⟩ := List.mem_map.mp hblock
      obtain rfl := Option.some.inj hq
      exact Nat.two_pow_pos 63
    · rw [List.mem_singleton.mp hnull] at hq
      cases hq
  have hread (j : Nat) :
      (pack m args stackCells).2.read { block := m.blocks.size + args.length } j =
      ((table m.blocks.size args.length).flatMap Pointer.pairOf)[j]?.getD .undefined := by
    rw [Memory.read, Memory.peek, cells_argv_pack, Nat.zero_add, List.getElem?_toArray]
  rw [argPointer, argv_pack, Memory.loadPointer, hread, hread,
    Pointer.ofPair_flatMap_pairOf hoffsets]
  unfold table
  by_cases hi : i < args.length
  · rw [if_pos hi, List.getElem?_append_left (by simpa using hi)]
    simp [hi]
  · rw [if_neg hi, List.getElem?_append_right (by simpa using hi)]
    generalize i - _ = beyond
    cases beyond <;> rfl

theorem spells_pack {i : Nat} {text : Text} (h : args[i]? = some text) :
    (pack m args stackCells).2.Spells { block := m.blocks.size + i } text := by
  have hi : i < args.length := (List.getElem?_eq_some_iff.mp h).1
  have hcells : (pack m args stackCells).2.cells (m.blocks.size + i) =
      (Memory.terminated text).toArray := by
    rw [pack_eq, Memory.cells, Array.getElem?_append_left (by simpa using hi),
      Array.getElem?_append_right (Nat.le_add_right _ _), Nat.add_sub_cancel_left]
    simp [h]
  have hrun := @Memory.readAll_of_cells_eq _ { block := m.blocks.size + i } _ rfl hcells
  rw [Memory.length_terminated] at hrun
  refine ⟨?_, hrun⟩
  rw [size_blocks_pack]
  show m.blocks.size + i < _
  omega

end Pack

end Entry

end CellMachine
