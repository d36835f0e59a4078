import CellMachine.Proofs.Conditions
import CellMachine.Proofs.Frame
import CellMachine.Proofs.Output
import CellMachine.Proofs.Varargs
import Mathlib.Algebra.Group.Int.Defs
/-!
# References to blocks

Library functions copy references to blocks but make none, save for the one to a block that they
add.  Main statements: `Returns.refers` for the cells of memory, `Returns.registers` for the result
registers, and `Returns.heap_eq` for the counts of the heap behind a request.
-/

namespace CellMachine

/-! ## References in memory -/

namespace Memory

/-- Some cell holds a reference to the block. -/
def Refers (m : Memory) (b : BlockId) : Prop := ∃ c i, m.peek c i = .block b

theorem refers_poke {m : Memory} {b c : BlockId} {i : Nat} {v : Value}
    (h : (m.poke c i v).Refers b) : v = .block b ∨ m.Refers b := by
  obtain ⟨d, j, hcell⟩ := h
  by_cases hexists : c < m.blocks.size
  · rw [peek_poke m d i j v hexists] at hcell
    split at hcell
    · exact .inl hcell
    · exact .inr ⟨d, j, hcell⟩
  · rw [peek, cells_poke, if_neg fun hsame => hexists hsame.2] at hcell
    exact .inr ⟨d, j, hcell⟩

theorem refers_writeAll {m : Memory} {p : Pointer} {vs : List Value} {b : BlockId}
    (h : (m.writeAll p vs).Refers b) : .block b ∈ vs ∨ m.Refers b := by
  induction vs generalizing m p with
  | nil => exact .inr h
  | cons v rest ih =>
      rcases ih h with hrest | hwritten
      · exact .inl (List.mem_cons_of_mem v hrest)
      · rcases refers_poke hwritten with rfl | hold
        · exact .inl List.mem_cons_self
        · exact .inr hold

theorem refers_alloc {m : Memory} {run : Array Value} {b : BlockId}
    (h : (m.alloc run).2.Refers b) : .block b ∈ run ∨ m.Refers b := by
  obtain ⟨c, i, hcell⟩ := h
  rw [peek, cells_alloc] at hcell
  split at hcell
  · cases hi : run[i]? with
    | none =>
        rw [hi] at hcell
        cases hcell
    | some v =>
        rw [hi] at hcell
        obtain rfl : v = .block b := hcell
        exact .inl (Array.mem_of_getElem? hi)
  · exact .inr ⟨c, i, hcell⟩

theorem refers_of_mem_readAll {m : Memory} {p : Pointer} {n : Nat} {b : BlockId}
    (h : .block b ∈ m.readAll p n) : m.Refers b := by
  obtain ⟨i, -, hread⟩ := List.mem_map.mp h
  exact ⟨p.block, p.offset + i, hread⟩

/-- A reference ends a text, so no text holds one. -/
theorem block_not_mem_textCells (m : Memory) (p : Pointer) (b : BlockId) :
    .block b ∉ m.textCells p := by
  intro h
  have hends : (Value.block b).endsText = true := rfl
  have hopen := List.mem_takeWhile_imp h
  simp [hends] at hopen

theorem block_not_mem_terminated (text : Text) (b : BlockId) : .block b ∉ terminated text := by
  simp [terminated]

theorem eq_writeAll_of_copyText {m m' : Memory} {target source : Pointer}
    (h : m.copyText target source = some m') :
    m' = m.writeAll target (m.textCells source ++ [.int 0]) := by
  rw [copyText_eq] at h
  split at h
  · cases h
  · exact (Option.some.inj h).symm

theorem eq_writeAll_of_fill {m m' : Memory} {p : Pointer} {n count : Int64}
    (h : m.fill p n count = some m') :
    m' = m.writeAll p (List.replicate (count - 1).toNatClampNeg (.int n)) := by
  unfold fill at h
  split at h
  · cases h
  · exact (Option.some.inj h).symm

end Memory

/-! ## Requests -/

/-- The cells that an allocation of zeros asks for, within the range of a length. -/
def Machine.zeroedCells (count size : Int64) : Nat :=
  (min (count.toInt * size.toInt) (2 ^ 63 - 1)).toNat

theorem Machine.zeroedLength_eq (count size : Int64) :
    zeroedLength count size = zeroedCells count size := by
  unfold zeroedLength zeroedCells
  by_cases hlt : count.toInt * size.toInt < 2 ^ 63
  · rw [Int64.toNatClampNeg_ofIntClamp_of_lt hlt, Int.min_eq_left (by omega)]
  · have hmax : Int64.ofIntClamp (count.toInt * size.toInt) = Int64.maxValue := by
      have hlow : Int64.minValue.toInt ≤ count.toInt * size.toInt := by
        rw [Int64.toInt_minValue]
        omega
      have hhigh : ¬count.toInt * size.toInt ≤ Int64.maxValue.toInt := by
        rw [Int64.toInt_maxValue]
        omega
      rw [Int64.ofIntClamp, dif_pos hlow, dif_neg hhigh]
    rw [hmax, Int.min_eq_right (by omega)]
    rfl

namespace Request

open CellMachine.Action (pointer? integer argument)

/-- The blocks that a request hands back from its arguments. -/
def passed : Request → List BlockId
  | .realloc p => (p.map Pointer.block).toList
  | .strcpy target _ | .memset target _ _ | .memcpy target _ _ => [target.block]
  | _ => []

def allocates : Request → Bool
  | .malloc | .calloc _ _ => true
  | _ => false

/-- The counts of the heap behind a request that returns. -/
def charge (heap : Heap) : Request → Heap
  | .malloc => { heap with allocations := heap.allocations + 1 }
  | .calloc count size =>
    { heap with
      allocations := heap.allocations + 1
      zeroedCells := heap.zeroedCells + Machine.zeroedCells count size }
  | .free (some _) => { heap with frees := heap.frees + 1 }
  | _ => heap

/-- No function puts a reference into memory that was not there. -/
theorem Returns.refers {r : Request} {m m' : Machine} {regs : List Value} {b : BlockId}
    (h : Returns m r regs m') (hrefers : m'.memory.Refers b) : m.memory.Refers b := by
  cases h with
  | sprintf _ =>
      rcases Memory.refers_writeAll hrefers with hnew | hold
      · exact absurd hnew (Memory.block_not_mem_terminated _ b)
      · exact hold
  | strcpy hcopy =>
      obtain rfl := Memory.eq_writeAll_of_copyText hcopy
      rcases Memory.refers_writeAll hrefers with hnew | hold
      · rcases List.mem_append.mp hnew with htext | hend
        · exact absurd htext (Memory.block_not_mem_textCells _ _ b)
        · simp at hend
      · exact hold
  | memset hfill =>
      obtain rfl := Memory.eq_writeAll_of_fill hfill
      rcases Memory.refers_writeAll hrefers with hnew | hold
      · cases List.eq_of_mem_replicate hnew
      · exact hold
  | memcpy =>
      rcases Memory.refers_writeAll hrefers with hnew | hold
      · exact Memory.refers_of_mem_readAll hnew
      · exact hold
  | gettimeofday =>
      rcases Memory.refers_writeAll hrefers with hnew | hold
      · simp at hnew
      · exact hold
  | malloc =>
      rcases Memory.refers_alloc hrefers with hnew | hold
      · simp at hnew
      · exact hold
  | calloc =>
      rcases Memory.refers_alloc hrefers with hnew | hold
      · simp at hnew
      · exact hold
  | @free p =>
      unfold Machine.release at hrefers
      split at hrefers <;> exact hrefers
  | _ => exact hrefers

theorem Returns.heap_eq {r : Request} {m m' : Machine} {regs : List Value}
    (h : Returns m r regs m') : m'.heap = r.charge m.heap := by
  cases h with
  | @free p => cases p <;> rfl
  | calloc => simp only [Machine.allocateZeroed, Machine.zeroedLength_eq, charge]
  | _ => rfl

/-- A reference in a register was an argument, or it is to the block that was added. -/
theorem Returns.registers {r : Request} {m m' : Machine} {regs : List Value}
    (h : Returns m r regs m') :
    (r.allocates = true ∧ regs = [.int 0, .block m.memory.blocks.size] ∧
      m'.memory.blocks.size = m.memory.blocks.size + 1) ∨
    (r.allocates = false ∧ (∀ b, .block b ∈ regs → b ∈ r.passed) ∧
      m'.memory.blocks.size = m.memory.blocks.size) := by
  cases h with
  | malloc => exact .inl ⟨rfl, rfl, by simp [Machine.allocate, Memory.alloc]⟩
  | calloc => exact .inl ⟨rfl, rfl, by simp [Machine.allocateZeroed, Memory.alloc]⟩
  | sprintf _ => exact .inr ⟨rfl, by simp, by simp [Memory.writeText]⟩
  | strcpy hcopy =>
      obtain rfl := Memory.eq_writeAll_of_copyText hcopy
      exact .inr ⟨rfl, by simp [Pointer.toPair, passed], by simp⟩
  | memset hfill =>
      obtain rfl := Memory.eq_writeAll_of_fill hfill
      exact .inr ⟨rfl, by simp [Pointer.toPair, passed], by simp⟩
  | memcpy => exact .inr ⟨rfl, by simp [Pointer.toPair, passed], by simp [Memory.moveCells]⟩
  | gettimeofday => exact .inr ⟨rfl, by simp, by simp⟩
  | @realloc p =>
      cases p <;> exact .inr ⟨rfl, by simp [Pointer.pairOf, Pointer.toPair, passed], rfl⟩
  | @free p => cases p <;> exact .inr ⟨rfl, by simp, rfl⟩
  | _ => exact .inr ⟨rfl, by simp, rfl⟩

theorem block_mem_of_pointer? {args : List Value} {i : Nat} {p : Pointer}
    (h : pointer? args i = some p) : .block p.block ∈ args := by
  obtain ⟨b, htail, rfl⟩ := Option.map_eq_some_iff.mp h
  unfold argument at htail
  cases hcell : args[i + 1]? with
  | none =>
      rw [hcell] at htail
      cases htail
  | some v =>
      rw [hcell] at htail
      cases v with
      | block c =>
          obtain rfl := Option.some.inj htail
          exact List.mem_of_getElem? hcell
      | _ => cases htail

theorem block_mem_of_passed {now : Instant} {s : Symbol} {args : List Value} {r : Request}
    {b : BlockId} (h : ofFlat now s args = .ok r) (hb : b ∈ r.passed) : .block b ∈ args := by
  cases s with
  | strcpy | memcpy =>
      obtain ⟨target, htarget, hrest⟩ := follow_bind_eq_ok h
      obtain ⟨source, -, hr⟩ := follow_bind_eq_ok hrest
      cases hr
      obtain rfl := List.mem_singleton.mp hb
      exact block_mem_of_pointer? htarget
  | memset =>
      obtain ⟨target, htarget, hr⟩ := follow_bind_eq_ok h
      cases hr
      obtain rfl := List.mem_singleton.mp hb
      exact block_mem_of_pointer? htarget
  | realloc =>
      cases h
      obtain ⟨p, hp, rfl⟩ := Option.map_eq_some_iff.mp (Option.mem_toList.mp hb)
      exact block_mem_of_pointer? hp
  | sprintf =>
      obtain ⟨target, -, hrest⟩ := follow_bind_eq_ok h
      obtain ⟨template, -, hr⟩ := follow_bind_eq_ok hrest
      cases hr
      cases hb
  | printf | atoi | atol | gettimeofday =>
      obtain ⟨p, -, hr⟩ := follow_bind_eq_ok h
      cases hr
      cases hb
  | _ =>
      cases h
      cases hb

theorem pointer?_eq_none_of_refuses {m : Memory} {args : List Value} {fault : Fault}
    (h : Refuses m "free".toList args fault) : pointer? args 0 = none := by
  have hfree {s : Symbol} (hs : s.name.toList = "free".toList) : s = .free := by
    revert hs
    cases s <;> decide
  cases h with
  | unknownSymbol hnone => exact absurd rfl (hnone .free)
  | argumentCount hs hshort =>
      obtain rfl := hfree hs
      obtain rfl : args = [] := List.length_eq_zero_iff.mp (Nat.lt_one_iff.mp hshort)
      rfl
  | nullPointer hs _ hi =>
      obtain rfl := hfree hs
      cases hi
  | format hs _ _ hmisformats =>
      obtain rfl := hfree hs
      obtain ⟨i, p, htemplate, -⟩ := hmisformats
      cases htemplate

theorem exists_ofFlat_of_ofCall {now : Instant} {name : Text} {args : List Value} {r : Request}
    (h : ofCall now name args = .ok r) :
    ∃ s : Symbol, s.name.toList = name ∧ ofFlat now s args = .ok r := by
  unfold ofCall at h
  cases hname : Symbol.ofName? name with
  | none =>
      rw [hname] at h
      cases h
  | some s =>
      simp only [hname] at h
      split at h
      · cases h
      · exact ⟨s, Symbol.ofName?_eq_some_iff.mp hname, h⟩

/-- A call that ends is refused and changes nothing, or it is the request of a function. -/
theorem call_cases {now : Instant} {name : Text} {args : List Value} {m m' : Machine}
    {result : Except Fault (List Value)} (h : Action.call now name args m = some (result, m')) :
    (∃ fault, result = .error fault ∧ Refuses m.memory name args fault ∧ m' = m) ∨
      ∃ s r regs, s.name.toList = name ∧ ofFlat now s args = .ok r ∧ result = .ok regs ∧
        Returns m r regs m' := by
  have hcall := h
  rw [call_eq_attempt] at h
  cases hread : ofCall now name args with
  | error fault =>
      rw [hread] at h
      obtain ⟨rfl, rfl⟩ := Prod.mk.inj (Option.some.inj h)
      exact .inl ⟨fault, rfl, failsWith_call_iff.mp ⟨m, hcall⟩, rfl⟩
  | ok r =>
      rw [hread] at h
      obtain ⟨s, hs, hflat⟩ := exists_ofFlat_of_ofCall hread
      cases result with
      | ok regs => exact .inr ⟨s, r, regs, hs, hflat, rfl, returns_of_perform h⟩
      | error fault =>
          exact .inl ⟨fault, rfl, failsWith_call_iff.mp ⟨m', hcall⟩, (unchanged_of_perform h).1⟩

end Request

end CellMachine
