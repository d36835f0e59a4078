import CellMachine.Memory.Basic
/-!
# Pointers

A pointer is a block and an offset into it; an absent one is null.  As registers or cells a pointer
takes two values.  Main statement: `peek_writeAll`, a run of writes is seen at its own positions
only.
-/

namespace CellMachine

/-- A position in a block. -/
structure Pointer where
  block : BlockId
  offset : Nat := 0
deriving DecidableEq

namespace Pointer

/-- The pointer that two values hold: null unless the second is a block; a negative offset counts as
zero. -/
def ofPair (offset tail : Value) : Option Pointer :=
  tail.block?.map fun b => { block := b, offset := offset.toInt64.toNatClampNeg }

/-- The two values of a pointer. -/
def toPair (p : Pointer) : List Value := [.int (Int64.ofNat p.offset), .block p.block]

/-- The two values of a pointer that may be null. -/
def pairOf : Option Pointer → List Value
  | some p => p.toPair
  | none => [.int 0, .null]

/-- The pointer `n` cells further. -/
def add (p : Pointer) (n : Nat) : Pointer := { p with offset := p.offset + n }

/-- The pointer moved by a signed distance, if its offset stays within 64 bits. -/
def move? (p : Pointer) (delta : Int) : Option Pointer :=
  if 0 ≤ p.offset + delta ∧ p.offset + delta < 2 ^ (64 : Nat) then
    some { p with offset := (p.offset + delta).toNat }
  else none

/-- The distance between two pointers into one block, in 64-bit arithmetic. -/
def distance? (p q : Pointer) : Option Int64 :=
  if p.block = q.block then some (Int64.ofNat p.offset - Int64.ofNat q.offset) else none

end Pointer

namespace Memory

/-- The cell `i` places from a pointer. -/
def read (m : Memory) (p : Pointer) (i : Nat) : Value := m.peek p.block (p.offset + i)

/-- Writes the cell `i` places from a pointer. -/
def write (m : Memory) (p : Pointer) (i : Nat) (v : Value) : Memory :=
  m.poke p.block (p.offset + i) v

/-- Writes a run of cells from a pointer on. -/
def writeAll (m : Memory) (p : Pointer) : List Value → Memory
  | [] => m
  | v :: rest => (m.write p 0 v).writeAll (p.add 1) rest

/-- The `n` cells from a pointer on. -/
def readAll (m : Memory) (p : Pointer) (n : Nat) : List Value := (List.range n).map (m.read p)

/-- The pointer held by two cells. -/
def loadPointer (m : Memory) (p : Pointer) (i : Nat) : Option Pointer :=
  Pointer.ofPair (m.read p i) (m.read p (i + 1))

/-- Writes a pointer into two cells. -/
def storePointer (m : Memory) (p : Pointer) (i : Nat) (target : Option Pointer) : Memory :=
  m.writeAll (p.add i) (Pointer.pairOf target)

@[simp] theorem size_blocks_writeAll (m : Memory) (p : Pointer) (vs : List Value) :
    (m.writeAll p vs).blocks.size = m.blocks.size := by
  induction vs generalizing m p with
  | nil => rfl
  | cons v rest ih => rw [writeAll, ih, write, size_blocks_poke]

/-- A run of writes is seen at its own positions only. -/
theorem peek_writeAll (m : Memory) (p : Pointer) (vs : List Value) (c : BlockId) (j : Nat)
    (h : p.block < m.blocks.size) :
    (m.writeAll p vs).peek c j =
      if c = p.block ∧ p.offset ≤ j ∧ j < p.offset + vs.length then
        vs[j - p.offset]?.getD .undefined
      else m.peek c j := by
  induction vs generalizing m p with
  | nil =>
      rw [writeAll, if_neg]
      simp only [List.length_nil]
      omega
  | cons v rest ih =>
      have hnext : (p.add 1).block < (m.write p 0 v).blocks.size := by
        rw [write, size_blocks_poke]
        exact h
      have hblock : (p.add 1).block = p.block := rfl
      have hoffset : (p.add 1).offset = p.offset + 1 := rfl
      rw [writeAll, ih _ _ hnext, write, peek_poke _ _ _ _ _ h, hblock, hoffset, List.length_cons]
      by_cases hc : c = p.block
      · subst hc
        simp only [true_and]
        rcases Nat.lt_trichotomy j p.offset with hbefore | hfirst | hlater
        · rw [if_neg (by omega), if_neg (by omega), if_neg (by omega)]
        · rw [if_neg (by omega), if_pos (by omega), if_pos (by omega), hfirst, Nat.sub_self]
          rfl
        · have hsucc : j - p.offset = j - (p.offset + 1) + 1 := by omega
          rw [hsucc, List.getElem?_cons_succ]
          by_cases hinside : j < p.offset + (rest.length + 1)
          · rw [if_pos (by omega), if_pos (by omega)]
          · rw [if_neg (by omega), if_neg (by omega), if_neg (by omega)]
      · rw [if_neg fun h => hc h.1, if_neg fun h => hc h.1, if_neg fun h => hc h.1]

theorem peek_writeAll_of_outside {m : Memory} {p : Pointer} {vs : List Value} {c : BlockId}
    {j : Nat} (h : p.block < m.blocks.size)
    (houtside : ¬(c = p.block ∧ p.offset ≤ j ∧ j < p.offset + vs.length)) :
    (m.writeAll p vs).peek c j = m.peek c j := by
  rw [peek_writeAll m p vs c j h, if_neg houtside]

end Memory

end CellMachine
