import CellMachine.Memory.Terminated
/-!
# Copies of texts

A text is copied cell by cell, and each cell of the source is read as memory stands then.  If the
target lies within the source, behind its first cell, then every cell is overwritten with part of
the text before it is read, so the end never comes.  Main statement: apart from this case, a copy
writes the text as it was before, and a terminator.
-/

namespace CellMachine

/-- The target lies behind the first of `length` cells from `source` on, and not beyond the one that
follows them. -/
def Pointer.Overtakes (target source : Pointer) (length : Nat) : Prop :=
  target.block = source.block ∧ source.offset < target.offset ∧
    target.offset ≤ source.offset + length

instance (target source : Pointer) (length : Nat) :
    Decidable (target.Overtakes source length) :=
  inferInstanceAs (Decidable (_ ∧ _ ∧ _))

namespace Memory

/-- From `p` on there is the text with the cells `run`, and a cell that ends it. -/
def HoldsText (m : Memory) (p : Pointer) : List Value → Prop
  | [] => (m.read p 0).endsText
  | v :: rest => m.read p 0 = v ∧ v.endsText = false ∧ m.HoldsText (p.add 1) rest

theorem read_add (m : Memory) (p : Pointer) (i j : Nat) :
    m.read (p.add i) j = m.read p (i + j) := by
  simp only [read, Pointer.add, Nat.add_assoc]

theorem read_write_of_ne {m : Memory} {p q : Pointer} {i j : Nat} (v : Value)
    (h : q.block = p.block → q.offset + j ≠ p.offset + i) :
    (m.write p i v).read q j = m.read q j := by
  unfold read write
  by_cases hexists : p.block < m.blocks.size
  · rw [peek_poke m _ _ _ v hexists, if_neg fun hsame => h hsame.1 hsame.2]
  · unfold peek
    rw [cells_poke, if_neg fun hsame => hexists hsame.2]

theorem read_write_self {m : Memory} {p q : Pointer} {i j : Nat} (v : Value)
    (hexists : p.block < m.blocks.size) (hblock : q.block = p.block)
    (hposition : q.offset + j = p.offset + i) : (m.write p i v).read q j = v := by
  unfold read write
  rw [peek_poke m _ _ _ v hexists, if_pos ⟨hblock, hposition⟩]

theorem lt_size_of_not_endsText {m : Memory} {p : Pointer} {i : Nat}
    (h : (m.read p i).endsText = false) : p.block < m.blocks.size := by
  apply Nat.lt_of_not_le
  intro hnone
  have hcells : m.cells p.block = #[] := by
    rw [cells, Array.getElem?_eq_none hnone, Option.getD_none]
  simp [read, peek, hcells, Value.endsText, Value.isDefined] at h

theorem holdsText_textCells (m : Memory) (p : Pointer) : m.HoldsText p (m.textCells p) := by
  unfold textCells
  induction hcells : m.cellsFrom p generalizing p with
  | nil =>
      have hend : (m.cells p.block).size ≤ p.offset := by simpa [cellsFrom] using hcells
      have hread : m.read p 0 = .undefined := by
        rw [read, peek, Nat.add_zero, Array.getElem?_eq_none hend, Option.getD_none]
      simp [HoldsText, hread, Value.endsText, Value.isDefined]
  | cons v rest ih =>
      have hhead : (m.cells p.block).toList[p.offset]? = some v := by
        have hdrop : (m.cellsFrom p)[0]? = (m.cells p.block).toList[p.offset + 0]? :=
          List.getElem?_drop
        rw [hcells, Nat.add_zero] at hdrop
        exact hdrop.symm
      have hread : m.read p 0 = v := by
        rw [read, peek, Nat.add_zero, ← Array.getElem?_toList, hhead, Option.getD_some]
      have hrest : m.cellsFrom (p.add 1) = rest := by
        unfold cellsFrom at hcells ⊢
        rw [Pointer.add, ← List.drop_drop, hcells]
        rfl
      cases hv : v.endsText with
      | true => simp [HoldsText, hread, hv]
      | false =>
          have hcons : (v :: rest).takeWhile (fun w => !w.endsText) =
              v :: rest.takeWhile (fun w => !w.endsText) := by
            simp [hv]
          rw [hcons]
          exact ⟨hread, hv, ih (p.add 1) hrest⟩

theorem HoldsText.congr {m m' : Memory} {p : Pointer} {run : List Value} (h : m.HoldsText p run)
    (hread : ∀ j ≤ run.length, m'.read p j = m.read p j) : m'.HoldsText p run := by
  induction run generalizing p with
  | nil =>
      simp only [HoldsText] at h ⊢
      rw [hread 0 (by simp)]
      exact h
  | cons v rest ih =>
      obtain ⟨hfirst, hv, hrest⟩ := h
      refine ⟨by rw [hread 0 (by simp), hfirst], hv, ih hrest ?_⟩
      intro j hj
      rw [read_add, read_add]
      exact hread (1 + j) (by rw [List.length_cons]; omega)

theorem HoldsText.not_endsText {m : Memory} {p : Pointer} {run : List Value} {j : Nat}
    (h : m.HoldsText p run) (hj : j < run.length) : (m.read p j).endsText = false := by
  induction run generalizing p j with
  | nil => simp at hj
  | cons v rest ih =>
      obtain ⟨hfirst, hv, hrest⟩ := h
      cases j with
      | zero => rw [hfirst, hv]
      | succ j =>
          have hnext := ih hrest (by simpa using hj)
          rwa [read_add, Nat.add_comm] at hnext

/-- The copy from cell `i` on, where the target stays out of the way of the reading. -/
theorem copyTextWithin_of_holdsText {m : Memory} {target source : Pointer} {run : List Value}
    {steps i : Nat} (hrun : m.HoldsText (source.add i) run)
    (hclear : ¬target.Overtakes source run.length) (hsteps : run.length < steps) :
    copyTextWithin target source steps i m =
      some (m.writeAll (target.add i) (run ++ [.int 0])) := by
  -- On what is left of the text.  A write at cell `i` of the target must not touch the cells of
  -- the source behind cell `i`, which are still to be read.
  induction run generalizing m steps i with
  | nil =>
      obtain ⟨steps, rfl⟩ : ∃ k, steps = k + 1 := ⟨steps - 1, by simp at hsteps; omega⟩
      have hend : (m.read source i).endsText = true := hrun
      rw [copyTextWithin, if_pos hend]
      rfl
  | cons v rest ih =>
      obtain ⟨steps, rfl⟩ : ∃ k, steps = k + 1 := ⟨steps - 1, by simp at hsteps; omega⟩
      obtain ⟨hfirst, hv, hrest⟩ := hrun
      have hread : m.read source i = v := hfirst
      have hlength : (v :: rest).length = rest.length + 1 := rfl
      rw [hlength] at hclear hsteps
      have hopen : ¬((m.read source i).endsText = true) := by rw [hread, hv]; simp
      have hkept : (m.write target i v).HoldsText (source.add (i + 1)) rest := by
        apply HoldsText.congr hrest
        intro j hj
        apply read_write_of_ne
        intro hblock hposition
        apply hclear
        simp only [Pointer.add] at hblock hposition
        exact ⟨hblock.symm, by omega, by omega⟩
      have hshort : ¬target.Overtakes source rest.length := by
        rintro ⟨hblock, hbehind, hwithin⟩
        exact hclear ⟨hblock, hbehind, by omega⟩
      rw [copyTextWithin, if_neg hopen, hread, ih hkept hshort (by omega)]
      rfl

/-- The copy from cell `i` on, where the target is `distance` cells ahead of the reading: the next
`distance` cells never end a text. -/
theorem copyTextWithin_eq_none {m : Memory} {target source : Pointer} {distance : Nat}
    (steps : Nat) {i : Nat} (hblock : target.block = source.block) (hpos : 0 < distance)
    (hoffset : target.offset = source.offset + distance)
    (hopen : ∀ j < distance, (m.read source (i + j)).endsText = false) :
    copyTextWithin target source steps i m = none := by
  induction steps generalizing m i with
  | zero => rfl
  | succ steps ih =>
      have hread : (m.read source i).endsText = false := hopen 0 hpos
      rw [copyTextWithin, if_neg (by simp [hread])]
      apply ih
      -- The cell that comes into view is the one that was just written.
      intro j hj
      by_cases hlast : j + 1 = distance
      · have hexists : target.block < m.blocks.size := hblock ▸ lt_size_of_not_endsText hread
        rw [read_write_self _ hexists hblock.symm (by omega)]
        exact hread
      · rw [read_write_of_ne _ (fun _ => by omega)]
        have hnext := hopen (j + 1) (by omega)
        rwa [← Nat.add_assoc, Nat.add_right_comm] at hnext

/-- A copy onto its own source never ends. -/
theorem copyTextWithin_of_overtakes {m : Memory} {target source : Pointer} (steps : Nat)
    (h : target.Overtakes source (m.textCells source).length) :
    copyTextWithin target source steps 0 m = none := by
  obtain ⟨hblock, hbehind, hwithin⟩ := h
  obtain ⟨distance, hoffset⟩ := Nat.exists_eq_add_of_lt hbehind
  apply copyTextWithin_eq_none steps hblock (Nat.succ_pos distance) hoffset
  intro j hj
  rw [Nat.zero_add]
  exact (m.holdsText_textCells source).not_endsText (by omega)

/-- A copy that has a step for each cell of the text and one for the terminator needs no more. -/
theorem copyTextWithin_eq {m : Memory} {target source : Pointer} {steps : Nat}
    (h : (m.textCells source).length < steps) :
    copyTextWithin target source steps 0 m =
      if target.Overtakes source (m.textCells source).length then none
      else some (m.writeAll target (m.textCells source ++ [.int 0])) := by
  by_cases hahead : target.Overtakes source (m.textCells source).length
  · rw [if_pos hahead, copyTextWithin_of_overtakes steps hahead]
  · rw [if_neg hahead]
    exact copyTextWithin_of_holdsText (m.holdsText_textCells source) hahead h

theorem copyText_eq (m : Memory) (target source : Pointer) :
    m.copyText target source =
      if target.Overtakes source (m.textCells source).length then none
      else some (m.writeAll target (m.textCells source ++ [.int 0])) :=
  copyTextWithin_eq (Nat.lt_succ_self _)

end Memory

end CellMachine
