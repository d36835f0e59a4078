import Mathlib.Order.Bounds.Defs
import CellMachine.Machine.Library
import CellMachine.Proofs.Texts
/-!
# What a copied text leaves in memory

A copy reads and writes one cell after the other, so source and target may share cells.  It ends
exactly if the target does not lie on the source behind its first cell.  Main statement: then the
old cells of the source are at the target as they were, a zero stands behind them, and all other
cells are unchanged.
-/

namespace CellMachine

namespace Memory

theorem readAll_concat (m : Memory) (p : Pointer) (n : Nat) :
    m.readAll p (n + 1) = m.readAll p n ++ [m.read p n] := by
  simp [readAll, List.range_succ]

theorem read_eq_of_readAll_eq {m m' : Memory} {p q : Pointer} {n i : Nat}
    (h : m.readAll p n = m'.readAll q n) (hi : i < n) : m.read p i = m'.read q i := by
  have hcell := congrArg (·[i]?) h
  simpa [readAll, hi] using hcell

/-- A text ends at the first cell that ends texts. -/
theorem holdsText_iff {m : Memory} {p : Pointer} {run : List Value} :
    m.HoldsText p run ↔ m.readAll p run.length = run ∧ (∀ v ∈ run, v.endsText = false) ∧
      (m.read p run.length).endsText = true := by
  induction run generalizing p with
  | nil => simp [HoldsText, readAll]
  | cons v rest ih =>
      have hlast : m.read (p.add 1) rest.length = m.read p (rest.length + 1) := by
        rw [read_add, Nat.add_comm]
      rw [HoldsText, ih, List.length_cons, readAll_succ, hlast, List.cons.injEq,
        List.forall_mem_cons]
      constructor
      · rintro ⟨hfirst, hv, hcells, hrest, hend⟩
        exact ⟨⟨hfirst, hcells⟩, ⟨hv, hrest⟩, hend⟩
      · rintro ⟨⟨hfirst, hcells⟩, ⟨hv, hrest⟩, hend⟩
        exact ⟨hfirst, hv, hcells, hrest, hend⟩

theorem endsText_eq_true_iff {v : Value} :
    v.endsText = true ↔ v.isDefined = false ∨ v.toInt64 = 0 := by
  simp [Value.endsText]

theorem isLeast_length_textCells (m : Memory) (p : Pointer) :
    IsLeast {i | (m.read p i).isDefined = false ∨ (m.read p i).toInt64 = 0}
      (m.textCells p).length := by
  have htext := m.holdsText_textCells p
  constructor
  · exact endsText_eq_true_iff.mp (holdsText_iff.mp htext).2.2
  · intro i hi
    apply Nat.le_of_not_lt
    intro hlt
    have hopen := htext.not_endsText hlt
    rw [endsText_eq_true_iff.mpr hi] at hopen
    cases hopen

/-! ## The cells of a copy -/

/-- What a copy of the text at `source` writes. -/
def copied (m : Memory) (target source : Pointer) : Memory :=
  m.writeAll target (m.textCells source ++ [.int 0])

variable {m : Memory} {target source : Pointer}

theorem read_copied (h : target.block < m.blocks.size) :
    (m.copied target source).readAll target (m.textCells source).length = m.textCells source ∧
      (m.copied target source).read target (m.textCells source).length = .int 0 := by
  have hrun := readAll_writeAll (m.textCells source ++ [.int 0]) h
  rw [List.length_append, List.length_singleton, readAll_concat] at hrun
  obtain ⟨hcells, hlast⟩ := List.append_inj hrun (length_readAll _ _ _)
  exact ⟨hcells, List.singleton_inj.mp hlast⟩

theorem peek_copied_of_outside (h : target.block < m.blocks.size) {b : BlockId} {j : Nat}
    (houtside : ¬(b = target.block ∧ target.offset ≤ j ∧
      j ≤ target.offset + (m.textCells source).length)) :
    (m.copied target source).peek b j = m.peek b j := by
  apply peek_writeAll_of_outside h
  rw [List.length_append, List.length_singleton]
  rintro ⟨hblock, hfrom, hto⟩
  exact houtside ⟨hblock, hfrom, Nat.le_of_lt_succ hto⟩

theorem textAt_copied (h : target.block < m.blocks.size) :
    (m.copied target source).textAt target = m.textAt source := by
  obtain ⟨hcells, hlast⟩ := @read_copied m target source h
  have hopen := (holdsText_iff.mp (m.holdsText_textCells source)).2.1
  have hend :
      ((m.copied target source).read target (m.textCells source).length).endsText = true := by
    rw [hlast]
    rfl
  have htext := holdsText_iff.mpr ⟨hcells, hopen, hend⟩
  rw [textAt, htext.textCells_eq, textAt]

end Memory

namespace Action

theorem strcpy_apply (target source : Pointer) (m : Machine) :
    strcpy target source m = (m.memory.copyText target source).map fun memory =>
      (.ok target, { m with memory := memory }) := by
  rw [strcpy, bind_apply, updateMemory]
  cases m.memory.copyText target source <;> rfl

/-- Let `n` be the number of cells from `source` on before one that is unwritten or has the integer
zero.  A copy ends unless its target is in the same block, behind the first cell of the source and
at most `n` cells from it.  If it ends, it returns the target; there the `n` cells of the source are
as they were, and a zero behind them.  No other cell changes, and the text is read as before. -/
theorem strcpy_copies_text (m : Machine) (target source : Pointer)
    (h : target.block < m.memory.blocks.size) :
    ∃ n,
      IsLeast {i | (m.memory.read source i).isDefined = false ∨
        (m.memory.read source i).toInt64 = 0} n ∧
      ((∃ steps, (Memory.copyTextWithin target source steps 0 m.memory).isSome) ↔
        ¬target.Overtakes source n) ∧
      (target.Overtakes source n → strcpy target source m = none) ∧
      (¬target.Overtakes source n → ∃ memory : Memory,
        strcpy target source m = some (.ok target, { m with memory := memory }) ∧
        (∀ steps > n, Memory.copyTextWithin target source steps 0 m.memory = some memory) ∧
        memory.blocks.size = m.memory.blocks.size ∧
        (∀ i < n, memory.read target i = m.memory.read source i) ∧
        memory.read target n = .int 0 ∧
        (∀ b j, ¬(b = target.block ∧ target.offset ≤ j ∧ j ≤ target.offset + n) →
          memory.peek b j = m.memory.peek b j) ∧
        memory.textAt target = m.memory.textAt source) := by
  -- The copy in steps decides whether there is an end; what it leaves is one run of writes.
  refine ⟨(m.memory.textCells source).length, m.memory.isLeast_length_textCells source, ?_, ?_, ?_⟩
  · constructor
    · rintro ⟨steps, hsome⟩ hahead
      rw [Memory.copyTextWithin_of_overtakes steps hahead] at hsome
      cases hsome
    · intro hclear
      refine ⟨(m.memory.textCells source).length + 1, ?_⟩
      rw [Memory.copyTextWithin_eq (Nat.lt_succ_self _), if_neg hclear]
      rfl
  · intro hahead
    rw [strcpy_apply, Memory.copyText_eq, if_pos hahead]
    rfl
  · intro hclear
    obtain ⟨hcells, hlast⟩ := @Memory.read_copied _ _ source h
    refine ⟨m.memory.copied target source, ?_, ?_, ?_, ?_, hlast, ?_, Memory.textAt_copied h⟩
    · rw [strcpy_apply, Memory.copyText_eq, if_neg hclear]
      rfl
    · intro steps hsteps
      rw [Memory.copyTextWithin_eq hsteps, if_neg hclear]
      rfl
    · exact Memory.size_blocks_writeAll _ _ _
    · intro i hi
      have hsource := (Memory.holdsText_iff.mp (m.memory.holdsText_textCells source)).1
      exact Memory.read_eq_of_readAll_eq (hcells.trans hsource.symm) hi
    · intro b j houtside
      exact Memory.peek_copied_of_outside h houtside

/-- The cells `h`, `"105"`, `"x"` move down by one: the second is a number in a text, and the third
is none and ends the copy. -/
theorem strcpy_copies_text_downward :
    let run : Array Value := #[.int 33, .int 104, .str "105".toList, .str "x".toList, .int 33]
    let m : Machine := { memory := { blocks := #[run] } }
    let target : Pointer := { block := 0 }
    let source : Pointer := { block := 0, offset := 1 }
    target.block < m.memory.blocks.size ∧ ¬target.Overtakes source 2 ∧
      ∃ memory : Memory,
        strcpy target source m = some (.ok target, { m with memory := memory }) ∧
        memory.readAll target 5 =
          [.int 104, .str "105".toList, .int 0, .str "x".toList, .int 33] ∧
        memory.textAt target = "hi".toList := by
  intro run m target source
  have hblock : target.block < m.memory.blocks.size := by decide
  obtain ⟨n, hleast, -, -, hcopies⟩ := strcpy_copies_text m target source hblock
  have hopen : ∀ i < 2, ¬((m.memory.read source i).isDefined = false ∨
      (m.memory.read source i).toInt64 = 0) := by decide +kernel
  have hend : (m.memory.read source 2).isDefined = false ∨
      (m.memory.read source 2).toInt64 = 0 := by decide +kernel
  have hn : n = 2 := by
    have hle : n ≤ 2 := hleast.2 hend
    have hge : ¬n < 2 := fun hlt => hopen n hlt hleast.1
    omega
  have hclear : ¬target.Overtakes source 2 := by decide
  rw [hn] at hcopies
  obtain ⟨memory, hstrcpy, -, -, hcells, hlast, hother, htext⟩ := hcopies hclear
  have hfirst : memory.read target 0 = .int 104 := hcells 0 (by decide)
  have hsecond : memory.read target 1 = .str "105".toList := hcells 1 (by decide)
  have hfourth : memory.read target 3 = .str "x".toList := hother 0 3 (by decide)
  have hfifth : memory.read target 4 = .int 33 := hother 0 4 (by decide)
  refine ⟨hblock, hclear, memory, hstrcpy, ?_, ?_⟩
  · rw [Memory.readAll_concat, Memory.readAll_concat, Memory.readAll_concat, Memory.readAll_concat,
      Memory.readAll_concat, hfirst, hsecond, hlast, hfourth, hfifth]
    rfl
  · rw [htext]
    decide +kernel

end Action

end CellMachine
