import CellMachine.Proofs.Entry
import CellMachine.Proofs.TotalMap
/-!
# The command line as a program finds it

The arguments of a program lie in blocks of their own, and so do the table of pointers to them and
the stack.  An argument is found through the table and then read from its block, so what is written
into one block is seen through that argument only.  Main statement: the table leads to each argument
and to nothing behind the last one, and no write into an argument reaches anything else.
-/

namespace CellMachine

namespace Memory

theorem textAt_congr {m m' : Memory} {p : Pointer} (h : m'.cells p.block = m.cells p.block) :
    m'.textAt p = m.textAt p := by
  simp only [textAt, textCells, cellsFrom, h]

/-- Writes into other blocks leave a block as it is. -/
theorem cells_replay_of_forall_ne {m : Memory} {b : BlockId} {log : List Write}
    (h : ∀ w ∈ log, w.pointer.block ≠ b) : (m.replay log).cells b = m.cells b := by
  induction log using List.reverseRecOn with
  | nil => rfl
  | append_singleton log w ih =>
      have hlast : b ≠ w.pointer.block := (h w (by simp)).symm
      have hlog : ∀ v ∈ log, v.pointer.block ≠ b := fun v hv => h v (List.mem_append_left [w] hv)
      rw [replay_concat, cells_write_of_ne _ _ hlast, ih hlog]

end Memory

theorem Pointer.length_flatMap_pairOf (ps : List (Option Pointer)) :
    (ps.flatMap pairOf).length = 2 * ps.length := by
  induction ps with
  | nil => rfl
  | cons p ps ih =>
      have hpair : (pairOf p).length = 2 := by cases p <;> rfl
      rw [List.flatMap_cons, List.length_append, hpair, ih, List.length_cons]
      omega

namespace Entry

/-- An argument depends on the table and on its own block only. -/
theorem arg_congr {entry : Entry} {m m' : Memory} {i : Nat}
    (hargv : m'.cells entry.argv.block = m.cells entry.argv.block)
    (htext : ∀ p ∈ entry.argPointer m i, m'.cells p.block = m.cells p.block) :
    entry.arg m' i = entry.arg m i := by
  rw [arg, arg, argPointer_congr hargv]
  cases hpointer : entry.argPointer m i with
  | none => rfl
  | some p => rw [Option.map_some, Option.map_some, Memory.textAt_congr (htext p hpointer)]

/-! ## The blocks of a packed command line -/

theorem length_table (start count : Nat) : (table start count).length = count + 1 := by
  rw [table, List.length_append, List.length_map, List.length_range', List.length_singleton]

theorem flatMap_pairOf_table (start count : Nat) :
    (table start count).flatMap Pointer.pairOf =
      (List.range' start count).flatMap (fun b => [.int 0, .block b]) ++ [.int 0, .null] := by
  rw [table, List.flatMap_append, List.flatMap_map]
  rfl

/-- The blocks of the table, of the stack and of the arguments. -/
def blocks (start count : Nat) : List Nat :=
  (start + count) :: (start + count + 1) :: List.range' start count

theorem mem_blocks_iff {start count b : Nat} :
    b ∈ blocks start count ↔ start ≤ b ∧ b < start + count + 2 := by
  rw [blocks, List.mem_cons, List.mem_cons, List.mem_range'_1]
  omega

theorem nodup_blocks (start count : Nat) : (blocks start count).Nodup := by
  have hbelow : ∀ b ∈ List.range' start count, b < start + count := by
    intro b hb
    exact (List.mem_range'_1.mp hb).2
  rw [blocks, List.nodup_cons, List.nodup_cons]
  refine ⟨?_, ?_, List.nodup_range'⟩
  · intro hmem
    rcases List.mem_cons.mp hmem with hstack | htext
    · omega
    · exact absurd (hbelow _ htext) (Nat.lt_irrefl _)
  · intro htext
    exact absurd (hbelow _ htext) (by omega)

section Pack

variable (m : Memory) (args : List Text) (stackCells : Nat)

theorem cells_stack_pack :
    (pack m args stackCells).2.cells (m.blocks.size + args.length + 1) =
      Array.replicate stackCells (.int 0) := by
  rw [pack_eq, Memory.cells, Array.getElem?_append_right (by simp)]
  simp

theorem arg_pack (i : Nat) :
    (pack m args stackCells).1.arg (pack m args stackCells).2 i = args[i]?.map Text.untilNull := by
  rw [arg, argPointer_pack]
  by_cases hi : i < args.length
  · have htext : args[i]? = some args[i] := List.getElem?_eq_getElem hi
    rw [if_pos hi, htext, Option.map_some, Option.map_some,
      (spells_pack m args stackCells htext).textAt_eq]
  · rw [if_neg hi, List.getElem?_eq_none (by omega)]
    rfl

section Writes

variable {i : Nat} {log : List Write}

theorem cells_replay_pack (h : ∀ w ∈ log, w.pointer.block = m.blocks.size + i) {b : BlockId}
    (hb : b ≠ m.blocks.size + i) :
    ((pack m args stackCells).2.replay log).cells b = (pack m args stackCells).2.cells b := by
  apply Memory.cells_replay_of_forall_ne
  intro w hw
  rw [h w hw]
  exact hb.symm

/-- What is written into one argument is not seen through another. -/
theorem arg_replay_pack (h : ∀ w ∈ log, w.pointer.block = m.blocks.size + i)
    (hi : i < args.length) {j : Nat} (hj : j ≠ i) :
    (pack m args stackCells).1.arg ((pack m args stackCells).2.replay log) j =
      (pack m args stackCells).1.arg (pack m args stackCells).2 j := by
  apply arg_congr
  · apply cells_replay_pack m args stackCells h
    rw [argv_pack]
    show m.blocks.size + args.length ≠ m.blocks.size + i
    omega
  · intro p hp
    rw [argPointer_pack] at hp
    split at hp
    · obtain rfl := Option.some.inj hp
      apply cells_replay_pack m args stackCells h
      show m.blocks.size + j ≠ m.blocks.size + i
      omega
    · cases hp

end Writes

end Pack

/-- A packed command line has one block for each argument, one for the table and one for the stack,
all of them new and different.  The table has a zero and a block for each argument, then a zero and
a null; the stack has as many zeros as asked for.  Through the table each argument is read up to its
first null character, and none is found behind the last one.  Writes into the block of an argument
change neither another argument nor the table nor the stack. -/
theorem pack_separates_arguments (m : Memory) (args : List Text) (stackCells : Nat) :
    let entry : Entry := (pack m args stackCells).1
    let packed : Memory := (pack m args stackCells).2
    ∃ own : List BlockId,
      (own.length = args.length ∧ entry.argc = args.length ∧
        entry.argv.offset = 0 ∧ entry.stack.offset = 0) ∧
      (∀ (i : Nat) (text : Text), args[i]? = some text → ∃ b, own[i]? = some b ∧
        entry.argPointer packed i = some { block := b } ∧
        entry.arg packed i = some text.untilNull) ∧
      (∀ i ≥ entry.argc, entry.argPointer packed i = none ∧ entry.arg packed i = none) ∧
      packed.cells entry.argv.block =
        (own.flatMap (fun b => [Value.int 0, Value.block b]) ++
          [Value.int 0, Value.null]).toArray ∧
      packed.size entry.argv.block = 2 * (entry.argc + 1) ∧
      packed.cells entry.stack.block = Array.replicate stackCells (.int 0) ∧
      (entry.argv.block :: entry.stack.block :: own).Nodup ∧
      (∀ b ∈ entry.argv.block :: entry.stack.block :: own,
        m.blocks.size ≤ b ∧ b < packed.blocks.size) ∧
      (∀ (i : Nat) (b : BlockId) (log : List Write), own[i]? = some b →
        (∀ w ∈ log, w.pointer.block = b) →
        (∀ j ≠ i, entry.arg (packed.replay log) j = entry.arg packed j) ∧
        (packed.replay log).cells entry.argv.block = packed.cells entry.argv.block ∧
        (packed.replay log).cells entry.stack.block = packed.cells entry.stack.block) := by
  intro entry packed
  have hargv : entry.argv = { block := m.blocks.size + args.length } := argv_pack m args stackCells
  have hstack : entry.stack = { block := m.blocks.size + args.length + 1 } :=
    stack_pack m args stackCells
  refine ⟨List.range' m.blocks.size args.length, ⟨List.length_range', rfl, ?_, ?_⟩, ?_, ?_, ?_, ?_,
    ?_, ?_, ?_, ?_⟩
  · rw [hargv]
  · rw [hstack]
  · intro i text htext
    have hi : i < args.length := (List.getElem?_eq_some_iff.mp htext).1
    refine ⟨m.blocks.size + i, by simp [hi], ?_, ?_⟩
    · rw [argPointer_pack, if_pos hi]
    · rw [arg_pack, htext, Option.map_some]
  · intro i hi
    have hbeyond : ¬i < args.length := Nat.not_lt.mpr hi
    refine ⟨?_, ?_⟩
    · rw [argPointer_pack, if_neg hbeyond]
    · rw [arg_pack, List.getElem?_eq_none hi, Option.map_none]
  · rw [hargv, cells_argv_pack, flatMap_pairOf_table]
  · rw [hargv, Memory.size, cells_argv_pack, List.size_toArray, Pointer.length_flatMap_pairOf,
      length_table, argc_pack]
  · rw [hstack, cells_stack_pack]
  · rw [hargv, hstack]
    exact nodup_blocks m.blocks.size args.length
  · intro b hb
    rw [hargv, hstack] at hb
    rw [size_blocks_pack]
    exact mem_blocks_iff.mp hb
  · intro i b log hb hlog
    obtain ⟨hlength, hat⟩ := List.getElem?_eq_some_iff.mp hb
    have hi : i < args.length := by rwa [List.length_range'] at hlength
    obtain rfl : m.blocks.size + i = b := by rwa [List.getElem_range', Nat.one_mul] at hat
    refine ⟨?_, ?_, ?_⟩
    · intro j hj
      exact arg_replay_pack m args stackCells hlog hi hj
    · have htable : m.blocks.size + args.length ≠ m.blocks.size + i := by omega
      rw [hargv]
      exact cells_replay_pack m args stackCells hlog htable
    · have hbehind : m.blocks.size + args.length + 1 ≠ m.blocks.size + i := by omega
      rw [hstack]
      exact cells_replay_pack m args stackCells hlog hbehind

/-- One of three arguments is empty and one has a null character.  The first is overwritten, and a
cell is written beyond its end. -/
theorem pack_separates_arguments_overwritten :
    let m : Memory := { blocks := #[#[.int 7]] }
    let args : List Text := [['a', 'b'], [], ['c', '\x00', 'd']]
    let entry : Entry := (pack m args 2).1
    let packed : Memory := (pack m args 2).2
    let first : Pointer := { block := 1 }
    let log : List Write := [⟨first, 0, .int 120⟩, ⟨first.add 2, 3, .int 9⟩]
    let written : Memory := packed.replay log
    entry.argPointer packed 0 = some first ∧ entry.arg packed 0 = some ['a', 'b'] ∧
      entry.arg packed 2 = some ['c'] ∧ entry.arg packed 3 = none ∧
      packed.size entry.argv.block = 8 ∧ entry.arg written 0 = some ['x', 'b'] ∧
      entry.arg written 1 = some [] ∧ entry.arg written 2 = some ['c'] ∧
      written.cells entry.stack.block = #[.int 0, .int 0] := by
  intro m args entry packed first log written
  obtain ⟨own, -, hfound, hnone, -, hsize, hstack, -, -, hapart⟩ :=
    pack_separates_arguments m args 2
  have hpointer : entry.argPointer packed 0 = some first := by decide
  obtain ⟨b, hb, hfirst, harg⟩ := hfound 0 ['a', 'b'] rfl
  obtain ⟨-, -, -, hempty⟩ := hfound 1 [] rfl
  obtain ⟨-, -, -, hlast⟩ := hfound 2 ['c', '\x00', 'd'] rfl
  obtain rfl : b = 1 := congrArg Pointer.block (Option.some.inj (hfirst.symm.trans hpointer))
  obtain ⟨hother, -, hkept⟩ := hapart 0 1 log hb (by decide)
  exact ⟨hpointer, harg, hlast, (hnone 3 (by decide)).2, hsize, by decide,
    (hother 1 (by decide)).trans hempty, (hother 2 (by decide)).trans hlast, hkept.trans hstack⟩

end Entry

end CellMachine
