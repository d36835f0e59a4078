import CellMachine.Proofs.Copy
import CellMachine.Proofs.Request
import Mathlib.Data.List.Basic
/-!
# What calls change in memory

Every function that writes to memory writes one run of cells from its target on.  A call therefore
changes no cell outside of that run, and what it adds in front of it is a gap of undefined cells.
Main statement: every call that returns is framed by the region of its request.
-/

namespace CellMachine

/-- A run of cells in a block. -/
structure Region where
  start : Pointer
  length : Nat

def Region.Covers (region : Region) (b : BlockId) (i : Nat) : Prop :=
  b = region.start.block ∧ region.start.offset ≤ i ∧ i < region.start.offset + region.length

namespace Memory

/-- Between `m` and `m'`, no block of `m` changes but within the region.  Blocks do not get shorter,
a block grows only to the end of the region, and what else it gains is undefined. -/
structure Framed (region : Option Region) (m m' : Memory) : Prop where
  size_blocks_le : m.blocks.size ≤ m'.blocks.size
  peek_eq : ∀ b < m.blocks.size, ∀ i, (∀ r ∈ region, ¬r.Covers b i) → m'.peek b i = m.peek b i
  cells_eq : ∀ b < m.blocks.size, (∀ r ∈ region, b ≠ r.start.block) → m'.cells b = m.cells b
  size_le : ∀ b < m.blocks.size, m.size b ≤ m'.size b
  size_eq_of_lt : ∀ b < m.blocks.size, m.size b < m'.size b →
    ∃ r ∈ region, b = r.start.block ∧ m'.size b = r.start.offset + r.length
  peek_gap : ∀ b < m.blocks.size, ∀ i, m.size b ≤ i → i < m'.size b →
    (∀ r ∈ region, ¬r.Covers b i) → m'.peek b i = .undefined

theorem peek_eq_undefined {m : Memory} {b : BlockId} {i : Nat} (h : m.size b ≤ i) :
    m.peek b i = .undefined := by
  rw [peek, Array.getElem?_eq_none h, Option.getD_none]

theorem framed_of_cells_eq {m m' : Memory} (region : Option Region)
    (hblocks : m.blocks.size ≤ m'.blocks.size)
    (hcells : ∀ b < m.blocks.size, m'.cells b = m.cells b) : Framed region m m' := by
  have hsize : ∀ b < m.blocks.size, m'.size b = m.size b := by
    intro b hb
    rw [size, size, hcells b hb]
  refine ⟨hblocks, ?_, fun b hb _ => hcells b hb, ?_, ?_, ?_⟩
  · intro b hb i _
    rw [peek, peek, hcells b hb]
  · intro b hb
    exact Nat.le_of_eq (hsize b hb).symm
  · intro b hb hlt
    rw [hsize b hb] at hlt
    omega
  · intro b hb i hle hlt
    rw [hsize b hb] at hlt
    omega

theorem cells_write_of_ne {m : Memory} {p : Pointer} {b : BlockId} (i : Nat) (v : Value)
    (h : b ≠ p.block) : (m.write p i v).cells b = m.cells b := by
  rw [write, cells_poke, if_neg fun hsame => h hsame.1]

theorem cells_writeAll_of_ne {m : Memory} {p : Pointer} {b : BlockId} (vs : List Value)
    (h : b ≠ p.block) : (m.writeAll p vs).cells b = m.cells b := by
  induction vs generalizing m p with
  | nil => rfl
  | cons v rest ih =>
      have hnext : b ≠ (p.add 1).block := h
      rw [writeAll, ih hnext, cells_write_of_ne 0 v h]

/-- A run of writes extends its block up to its own end. -/
theorem size_writeAll {m : Memory} {p : Pointer} {vs : List Value} (h : p.block < m.blocks.size)
    (hne : vs ≠ []) :
    (m.writeAll p vs).size p.block = max (m.size p.block) (p.offset + vs.length) := by
  induction vs generalizing m p with
  | nil => exact absurd rfl hne
  | cons v rest ih =>
      have hfirst : (m.write p 0 v).size p.block = max (m.size p.block) (p.offset + 1) := by
        rw [write, size_poke m p.block _ v h, if_pos rfl, Nat.add_zero]
      have hblock : (p.add 1).block = p.block := rfl
      have hoffset : (p.add 1).offset = p.offset + 1 := rfl
      have hknown : (p.add 1).block < (m.write p 0 v).blocks.size := by
        rw [write, size_blocks_poke]
        exact h
      rw [writeAll, List.length_cons]
      cases rest with
      | nil => exact hfirst
      | cons w rest =>
          have hrest := ih hknown (by simp)
          rw [hblock, hoffset, hfirst] at hrest
          rw [hrest]
          omega

/-- A run of writes extends its block unless it is empty. -/
theorem size_writeAll_eq_ite {m : Memory} {p : Pointer} {vs : List Value}
    (h : p.block < m.blocks.size) :
    (m.writeAll p vs).size p.block =
      if 0 < vs.length then max (m.size p.block) (p.offset + vs.length) else m.size p.block := by
  cases vs with
  | nil => rfl
  | cons v rest =>
      have hpos : 0 < (v :: rest).length := Nat.succ_pos _
      rw [if_pos hpos, size_writeAll h (List.cons_ne_nil v rest)]

theorem framed_writeAll (m : Memory) (p : Pointer) {vs : List Value} {length : Nat}
    (hlength : vs.length = length) : Framed (some ⟨p, length⟩) m (m.writeAll p vs) := by
  subst hlength
  have hblocks : (m.writeAll p vs).blocks.size = m.blocks.size := size_blocks_writeAll m p vs
  by_cases hnil : vs = []
  · subst hnil
    exact framed_of_cells_eq _ (Nat.le_refl _) fun _ _ => rfl
  have hother : ∀ b, b ≠ p.block → (m.writeAll p vs).size b = m.size b := by
    intro b hb
    rw [size, size, cells_writeAll_of_ne vs hb]
  have hpeek : ∀ b < m.blocks.size, ∀ i, ¬Region.Covers ⟨p, vs.length⟩ b i →
      (m.writeAll p vs).peek b i = m.peek b i := by
    intro b hb i hout
    by_cases hsame : b = p.block
    -- Here the target is a block of `m`; otherwise the writes are lost.
    · exact peek_writeAll_of_outside (hsame ▸ hb) hout
    · rw [peek, peek, cells_writeAll_of_ne vs hsame]
  refine ⟨Nat.le_of_eq hblocks.symm, ?_, ?_, ?_, ?_, ?_⟩
  · intro b hb i hout
    exact hpeek b hb i (hout _ rfl)
  · intro b hb hne
    exact cells_writeAll_of_ne vs (hne _ rfl)
  · intro b hb
    by_cases hsame : b = p.block
    · subst hsame
      rw [size_writeAll hb hnil]
      omega
    · exact Nat.le_of_eq (hother b hsame).symm
  · intro b hb hlt
    by_cases hsame : b = p.block
    · subst hsame
      rw [size_writeAll hb hnil] at hlt ⊢
      have hgrown : max (m.size p.block) (p.offset + vs.length) = p.offset + vs.length := by
        omega
      exact ⟨_, rfl, rfl, hgrown⟩
    · rw [hother b hsame] at hlt
      omega
  · intro b hb i hle hlt hout
    rw [hpeek b hb i (hout _ rfl)]
    exact peek_eq_undefined hle

theorem framed_alloc (m : Memory) (run : Array Value) : Framed none m (m.alloc run).2 := by
  apply framed_of_cells_eq
  · simp [alloc]
  · intro b hb
    rw [cells_alloc, if_neg (Nat.ne_of_lt hb)]

theorem framed_refl (m : Memory) : Framed none m m :=
  framed_of_cells_eq none (Nat.le_refl _) fun _ _ => rfl

theorem framed_copyText {m m' : Memory} {target source : Pointer}
    (h : m.copyText target source = some m') :
    Framed (some ⟨target, (m.textAt source).length + 1⟩) m m' := by
  rw [copyText_eq] at h
  split at h
  · cases h
  · obtain rfl := Option.some.inj h
    exact framed_writeAll m target (by simp [textAt])

theorem toNatClampNeg_sub_one {count : Int64} (h : count ≠ Int64.minValue) :
    (count - 1).toNatClampNeg = (count.toInt - 1).toNat := by
  have hlow := count.le_toInt
  have hhigh := count.toInt_lt
  have hne : count.toInt ≠ -2 ^ 63 := by
    rw [← Int64.toInt_minValue]
    exact fun heq => h (Int64.toInt_inj.mp heq)
  have hone : (1 : Int64).toInt = 1 := by decide
  have hsub : (count - 1).toInt = count.toInt - 1 := by
    rw [Int64.toInt_sub, hone]
    apply Int.bmod_eq_of_le <;> omega
  show (count - 1).toInt.toNat = (count.toInt - 1).toNat
  rw [hsub]

theorem framed_fill {m m' : Memory} {target : Pointer} {n count : Int64}
    (h : m.fill target n count = some m') :
    Framed (some ⟨target, (count.toInt - 1).toNat⟩) m m' := by
  unfold fill at h
  by_cases hmin : count = Int64.minValue
  · rw [if_pos hmin] at h
    cases h
  · rw [if_neg hmin] at h
    obtain rfl := Option.some.inj h
    apply framed_writeAll
    rw [List.length_replicate, toNatClampNeg_sub_one hmin]

theorem framed_moveCells (m : Memory) (target source : Pointer) (count : Int64) :
    Framed (some ⟨target, count.toInt.toNat⟩) m (m.moveCells target source count) := by
  apply framed_writeAll
  rw [readAll, List.length_map, List.length_range]
  rfl

theorem framed_writeText (m : Memory) (p : Pointer) (text : Text) :
    Framed (some ⟨p, text.length + 1⟩) m (m.writeText p text) :=
  framed_writeAll m p (by simp [terminated])

end Memory

namespace Request

/-- The cells that a request may change. -/
def destination (m : Memory) (r : Request) : Option Region :=
  match r with
  | .strcpy target source => some ⟨target, (m.textAt source).length + 1⟩
  | .memset target _ count => some ⟨target, (count.toInt - 1).toNat⟩
  | .memcpy target _ count => some ⟨target, count.toInt.toNat⟩
  | .sprintf target _ _ =>
    ((r.rendered m).bind Except.toOption).map fun text => ⟨target, text.length + 1⟩
  | .gettimeofday _ target => some ⟨target, 2⟩
  | _ => none

theorem Returns.framed {r : Request} {m m' : Machine} {regs : List Value}
    (h : Returns m r regs m') : Memory.Framed (r.destination m.memory) m.memory m'.memory := by
  cases h with
  | sprintf htext =>
      simp only [destination, htext, Option.bind_some, Except.toOption, Option.map_some]
      exact Memory.framed_writeText _ _ _
  | strcpy hcopy => exact Memory.framed_copyText hcopy
  | memset hfill => exact Memory.framed_fill hfill
  | memcpy => exact Memory.framed_moveCells _ _ _ _
  | gettimeofday => exact Memory.framed_writeAll _ _ rfl
  | malloc => exact Memory.framed_alloc _ _
  | calloc => exact Memory.framed_alloc _ _
  | @free p =>
      have hmemory : (m.release p).memory = m.memory := by
        unfold Machine.release
        split <;> rfl
      rw [hmemory]
      exact Memory.framed_refl _
  | _ => exact Memory.framed_refl _

/-- A call that returns is framed by the destination of its request.  A copy of a text changes as
many cells as the text has and one more, a fill one fewer than its count, a move as many as its
count, a formatted text its characters and one more, the time two cells; all other functions change
none. -/
theorem call_framed (now : Instant) (name : Text) (args : List Value) (m m' : Machine)
    (regs : List Value) (h : Action.call now name args m = some (.ok regs, m')) :
    ∃ r, ofCall now name args = .ok r ∧
      Memory.Framed (r.destination m.memory) m.memory m'.memory := by
  rw [call_eq_attempt] at h
  cases hread : ofCall now name args with
  | error fault =>
      rw [hread] at h
      cases h
  | ok r =>
      rw [hread] at h
      exact ⟨r, rfl, (returns_of_perform h).framed⟩

/-- A text is copied behind itself in one block, two cells beyond its end. -/
theorem call_framed_gap :
    let now : Instant := { seconds := 0, microseconds := 0 }
    let text : Array Value := #[.int 97, .int 98, .int 0]
    let m : Machine := { memory := { blocks := #[text, #[.int 1]] } }
    let m' : Machine :=
      { memory := { blocks := #[text ++ #[.undefined, .undefined] ++ text, #[.int 1]] } }
    Action.call now "strcpy".toList [.int 5, .block 0, .int 0, .block 0] m =
        some (.ok [.int 5, .block 0], m') ∧
      m'.memory.peek 0 2 = m.memory.peek 0 2 ∧ m'.memory.peek 0 3 = .undefined ∧
      m'.memory.cells 1 = m.memory.cells 1 ∧ m.memory.size 0 ≤ m'.memory.size 0 := by
  intro now text m m'
  have hcall : Action.call now "strcpy".toList [.int 5, .block 0, .int 0, .block 0] m =
      some (.ok [.int 5, .block 0], m') := by decide +kernel
  obtain ⟨r, hread, hframed⟩ := call_framed now _ _ m m' _ hcall
  obtain rfl : Request.strcpy ⟨0, 5⟩ ⟨0, 0⟩ = r := Except.ok.inj hread
  have hout : ∀ i < 5, ∀ region ∈ (strcpy ⟨0, 5⟩ ⟨0, 0⟩).destination m.memory,
      ¬region.Covers 0 i := by
    intro i hi region hregion
    obtain rfl := Option.some.inj hregion
    rintro ⟨-, hle, -⟩
    exact absurd hle (by simpa using hi)
  refine ⟨hcall, hframed.peek_eq 0 (by decide) 2 (hout 2 (by decide)),
    hframed.peek_gap 0 (by decide) 3 (by decide) (by decide) (hout 3 (by decide)),
    hframed.cells_eq 1 (by decide) ?_, hframed.size_le 0 (by decide)⟩
  intro region hregion
  obtain rfl := Option.some.inj hregion
  decide

end Request

end CellMachine
