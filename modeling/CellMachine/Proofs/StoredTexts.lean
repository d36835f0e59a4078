import CellMachine.Proofs.Entry
/-!
# Texts that go through memory

A text is written as integers, but what is read as a text may be any cells: numbers that no
character has, numbers in texts, references, gaps.  Each cell that does not end a text has an
integer other than zero, and that never decodes to the null character.  Main statement: what was
written is read back up to its first null character, and what was read can be written anywhere and
is read back whole.
-/

namespace CellMachine

/-- Only the code zero stands for the null character. -/
theorem Text.ofCode_eq_null_iff {code : Int64} : ofCode code = '\x00' ↔ code = 0 := by
  constructor
  · intro hnull
    unfold ofCode at hnull
    split at hnull
    · next hvalid =>
        have hback : (Char.ofNat code.toInt.toNat).toNat = code.toInt.toNat := by
          rw [Char.ofNat, dif_pos hvalid.2]
          rfl
        rw [hnull] at hback
        have hnat : 0 = code.toInt.toNat := hback
        have hint : code.toInt = 0 := by omega
        exact Int64.toInt_inj.mp hint
    · exact absurd hnull (by decide)
  · rintro rfl
    decide

namespace Memory

/-! ## Reading -/

/-- Reads cell after cell from the one `i` places from `p` up to the end of the text, within a
number of steps: none if that does not suffice. -/
def readTextWithin (m : Memory) (p : Pointer) : Nat → Nat → Option Text
  | 0, _ => none
  | steps + 1, i =>
    let v := m.read p i
    if v.endsText then some []
    else (readTextWithin m p steps (i + 1)).map (Text.ofCode v.toInt64 :: ·)

theorem readTextWithin_of_holdsText {m : Memory} {p : Pointer} {run : List Value} {steps i : Nat}
    (h : m.HoldsText (p.add i) run) (hsteps : run.length < steps) :
    m.readTextWithin p steps i = some (run.map fun v => Text.ofCode v.toInt64) := by
  -- On the cells that are still to be read.
  induction run generalizing steps i with
  | nil =>
      obtain ⟨steps, rfl⟩ := Nat.exists_eq_add_one_of_ne_zero (Nat.ne_of_gt hsteps)
      have hend : (m.read p i).endsText = true := h
      rw [readTextWithin, if_pos hend]
      rfl
  | cons v rest ih =>
      obtain ⟨hfirst, hv, hrest⟩ := h
      rw [List.length_cons] at hsteps
      obtain ⟨steps, rfl⟩ := Nat.exists_eq_add_one_of_ne_zero (Nat.ne_zero_of_lt hsteps)
      have hread : m.read p i = v := hfirst
      have hopen : ¬(m.read p i).endsText = true := by rw [hread, hv]; simp
      have hnext : m.HoldsText (p.add (i + 1)) rest := hrest
      rw [readTextWithin, if_neg hopen, ih hnext (by omega), hread]
      rfl

/-- Reading from cell to cell ends, with the text as its result. -/
theorem readTextWithin_eq {m : Memory} {p : Pointer} {steps : Nat}
    (h : (m.textAt p).length < steps) : m.readTextWithin p steps 0 = some (m.textAt p) := by
  have hrun : m.HoldsText (p.add 0) (m.textCells p) := m.holdsText_textCells p
  rw [textAt, List.length_map] at h
  exact readTextWithin_of_holdsText hrun h

theorem HoldsText.drop {m : Memory} {p : Pointer} {run : List Value} {k : Nat}
    (h : m.HoldsText p run) (hk : k ≤ run.length) : m.HoldsText (p.add k) (run.drop k) := by
  induction run generalizing p k with
  | nil =>
      obtain rfl : k = 0 := Nat.le_zero.mp hk
      exact h
  | cons v rest ih =>
      cases k with
      | zero => exact h
      | succ k =>
          obtain ⟨-, -, hrest⟩ := h
          have hfurther : (p.add 1).add k = p.add (k + 1) := by
            simp only [Pointer.add, Nat.add_assoc, Nat.add_comm 1]
          rw [List.drop_succ_cons, ← hfurther]
          exact ih hrest (Nat.le_of_succ_le_succ hk)

/-- From within a text, its rest is read. -/
theorem textAt_add {m : Memory} {p : Pointer} {k : Nat} (hk : k ≤ (m.textAt p).length) :
    m.textAt (p.add k) = (m.textAt p).drop k := by
  rw [textAt, List.length_map] at hk
  have hrest := (m.holdsText_textCells p).drop hk
  rw [textAt, hrest.textCells_eq, List.map_drop, textAt]

theorem endsText_of_mem_textCells {m : Memory} {p : Pointer} {v : Value}
    (h : v ∈ m.textCells p) : v.endsText = false := by
  simpa using List.mem_takeWhile_imp h

theorem null_not_mem_textAt (m : Memory) (p : Pointer) : '\x00' ∉ m.textAt p := by
  intro hnull
  obtain ⟨v, hv, hcode⟩ := List.mem_map.mp hnull
  have hzero : v.toInt64 = 0 := Text.ofCode_eq_null_iff.mp hcode
  have hopen := endsText_of_mem_textCells hv
  simp [Value.endsText, hzero] at hopen

/-- A text is no longer than the written cells from where it begins, gaps not counted. -/
theorem length_textAt_le (m : Memory) (p : Pointer) :
    (m.textAt p).length ≤ (m.cellsFrom p).countP Value.isDefined := by
  have hdefined : ∀ v ∈ m.textCells p, v.isDefined = true := by
    intro v hv
    have hopen := endsText_of_mem_textCells hv
    simp only [Value.endsText, Bool.or_eq_false_iff, Bool.not_eq_false'] at hopen
    exact hopen.1
  have hprefix : (m.textCells p).Sublist (m.cellsFrom p) := (List.takeWhile_prefix _).sublist
  calc (m.textAt p).length
      = (m.textCells p).length := List.length_map _
    _ = (m.textCells p).countP Value.isDefined := (List.countP_eq_length.mpr hdefined).symm
    _ ≤ (m.cellsFrom p).countP Value.isDefined := hprefix.countP_le

/-! ## Writing -/

theorem textAt_allocText (m : Memory) (text : Text) :
    (m.allocText text).2.textAt (m.allocText text).1 = text.untilNull :=
  (spells_allocText m text).textAt_eq

theorem textAt_storeText {m : Memory} {p : Pointer} (text : Text) (h : p.block < m.blocks.size) :
    (m.storeText p text).2.textAt p = text.untilNull := by
  rw [storeText_eq]
  exact textAt_of_readAll (readAll_writeText text h)

theorem peek_storeText_of_outside {m : Memory} {p : Pointer} {text : Text} {b : BlockId} {j : Nat}
    (h : p.block < m.blocks.size)
    (houtside : ¬(b = p.block ∧ p.offset ≤ j ∧ j ≤ p.offset + text.length)) :
    (m.storeText p text).2.peek b j = m.peek b j := by
  rw [storeText_eq]
  apply peek_writeAll_of_outside h
  rw [length_terminated]
  rintro ⟨hblock, hfrom, hto⟩
  exact houtside ⟨hblock, hfrom, Nat.le_of_lt_succ hto⟩

/-- A text in a block of its own is read up to its first null character, and from each of the cells
up to there its rest is read.  Stored at a target, a text is counted in characters; no cell changes
but as many as the count from the target on and one more, and the text is read up to its first null
character.  Wherever reading begins, it ends, and the text has no null character and at most one
character for each written cell; in a block of its own or stored at a target, it is read again. -/
theorem texts_round_trip (m : Memory) (text : Text) (p target : Pointer)
    (h : target.block < m.blocks.size) :
    (∀ k ≤ text.untilNull.length,
      (m.allocText text).2.textAt ((m.allocText text).1.add k) = text.untilNull.drop k) ∧
    ((m.storeText target text).1 = text.length ∧
      (∀ (b : BlockId) (j : Nat),
        ¬(b = target.block ∧ target.offset ≤ j ∧ j ≤ target.offset + text.length) →
          (m.storeText target text).2.peek b j = m.peek b j) ∧
      (m.storeText target text).2.textAt target = text.untilNull) ∧
    ((∀ steps > (m.textAt p).length, m.readTextWithin p steps 0 = some (m.textAt p)) ∧
      '\x00' ∉ m.textAt p ∧
      (m.textAt p).length ≤ (m.cellsFrom p).countP Value.isDefined ∧
      (m.allocText (m.textAt p)).2.textAt (m.allocText (m.textAt p)).1 = m.textAt p ∧
      (m.storeText target (m.textAt p)).2.textAt target = m.textAt p) := by
  have hwhole : (m.textAt p).untilNull = m.textAt p :=
    Text.untilNull_of_not_mem (m.null_not_mem_textAt p)
  refine ⟨?_, ⟨?_, ?_, textAt_storeText text h⟩, ?_, m.null_not_mem_textAt p,
    m.length_textAt_le p, ?_, ?_⟩
  · intro k hk
    rw [← textAt_allocText m text] at hk ⊢
    exact textAt_add hk
  · rw [storeText_eq]
  · intro b j houtside
    exact peek_storeText_of_outside h houtside
  · intro steps hsteps
    exact readTextWithin_eq hsteps
  · rw [textAt_allocText, hwhole]
  · rw [textAt_storeText _ h, hwhole]

/-- The text at `p` has a negative code, a number in a text and a surrogate, and ends at a reference
to its own block; it is stored over its last cell. -/
theorem texts_round_trip_odd_cells :
    let run : Array Value :=
      #[.int 33, .int (-5), .str "67".toList, .int 0xD800, .block 0, .int 33]
    let m : Memory := { blocks := #[run] }
    let p : Pointer := { block := 0, offset := 1 }
    let target : Pointer := { block := 0, offset := 3 }
    let text : Text := ['a', '\x00', 'b']
    let found : Text := [Text.replacement, 'C', Text.replacement]
    target.block < m.blocks.size ∧ m.textAt p = found ∧ m.readTextWithin p 4 0 = some found ∧
      (m.storeText target found).2.textAt target = found ∧
      (m.storeText target text).1 = 3 ∧ (m.storeText target text).2.textAt target = ['a'] ∧
      (m.storeText target text).2.peek 0 2 = .str "67".toList ∧
      (m.allocText text).2.textAt ((m.allocText text).1.add 1) = [] := by
  intro run m p target text found
  have htarget : target.block < m.blocks.size := by decide
  have hfound : m.textAt p = found := by decide +kernel
  obtain ⟨hnew, ⟨hcount, hother, hstored⟩, hends, -, -, -, hagain⟩ :=
    texts_round_trip m text p target htarget
  rw [hfound] at hends hagain
  exact ⟨htarget, hfound, hends 4 (by decide), hagain, hcount, hstored, hother 0 2 (by decide),
    hnew 1 (by decide)⟩

end Memory

end CellMachine
