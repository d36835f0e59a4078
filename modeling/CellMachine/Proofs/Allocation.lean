import Mathlib.Algebra.GroupWithZero.Nat
import CellMachine.Proofs.References
/-!
# Allocation over whole sessions

A program can only use references that it came by: those to the standard streams, to blocks that it
made itself, and what it found in result registers and cells.  A ledger keeps what was done so far
and what came of it.  Main statement: in every session each reference leads to a block of the
program, of a stream or of an earlier allocation, an allocation is a block that nothing has ever
referred to, and the counts of the heap are those of the calls.
-/

namespace CellMachine

/-! ## Deeds and records -/

/-- What a program can do with a machine: call a function, make a block of its own, and read or
write a cell. -/
inductive Deed where
  | call (now : Instant) (name : Text) (args : List Value)
  | create (run : List Value)
  | read (p : Pointer) (i : Nat)
  | write (p : Pointer) (i : Nat) (v : Value)
deriving DecidableEq

namespace Deed

/-- Does it.  A new block comes as a pointer to its first cell, and a cell as its value. -/
def perform : Deed → Action (List Value)
  | .call now name args => Action.call now name args
  | .create run => do
    let m ← get
    set { m with memory := (m.memory.alloc run.toArray).2 }
    return [.int 0, .block (m.memory.alloc run.toArray).1]
  | .read p i => do return [(← get).memory.read p i]
  | .write p i v => do
    modify fun m => { m with memory := m.memory.write p i v }
    return []

/-- The values that a program needs for a deed. -/
def uses : Deed → List Value
  | .call _ _ args => args
  | .create run => run
  | .read p _ => [.block p.block]
  | .write p _ v => [.block p.block, v]

end Deed

structure Record where
  deed : Deed
  result : Except Fault (List Value)
deriving DecidableEq

namespace Record

open CellMachine.Action (pointer? integer)

/-- The values that a program has from the deed. -/
def registers (r : Record) : List Value := r.result.toOption.getD []

/-- The program made a block of its own. -/
def creates (r : Record) : Bool :=
  match r.deed with
  | .create _ => true
  | _ => false

/-- A call of an allocating function succeeded. -/
def allocates (r : Record) : Bool :=
  match r.deed, r.result with
  | .call _ name _, .ok _ => name == "malloc".toList || name == "calloc".toList
  | _, _ => false

/-- The zeros that were asked for in a call that succeeded. -/
def zeroed (r : Record) : Nat :=
  match r.deed, r.result with
  | .call _ name args, .ok _ =>
    if name == "calloc".toList then Machine.zeroedCells (integer args 0) (integer args 1) else 0
  | _, _ => 0

/-- A pointer other than null was released. -/
def frees (r : Record) : Bool :=
  match r.deed with
  | .call _ name args => name == "free".toList && (pointer? args 0).isSome
  | _ => false

def charge (heap : Heap) (r : Record) : Heap where
  allocations := heap.allocations + r.allocates.toNat
  zeroedCells := heap.zeroedCells + r.zeroed
  frees := heap.frees + r.frees.toNat

/-- All that a deed can do to references and counts.  Either it adds a block, and that is the only
reference that it gives, or what it gives was used or stood in a cell. -/
structure Effect (r : Record) (m m' : Machine) : Prop where
  refers : ∀ b, m'.memory.Refers b → m.memory.Refers b ∨ .block b ∈ r.deed.uses
  registers :
    ((r.creates ∨ r.allocates) ∧ r.registers = [.int 0, .block m.memory.blocks.size] ∧
      m'.memory.blocks.size = m.memory.blocks.size + 1) ∨
    (¬(r.creates ∨ r.allocates) ∧
      (∀ b, .block b ∈ r.registers → m.memory.Refers b ∨ .block b ∈ r.deed.uses) ∧
      m'.memory.blocks.size = m.memory.blocks.size)
  heap : m'.heap = r.charge m.heap

theorem effect_refused {now : Instant} {name : Text} {args : List Value} {m : Machine}
    {fault : Fault} (h : Request.Refuses m.memory name args fault) :
    Effect ⟨.call now name args, .error fault⟩ m m where
  refers _ hrefers := .inl hrefers
  registers := .inr ⟨by simp [creates, allocates], by simp [Record.registers, Except.toOption], rfl⟩
  heap := by
    have hfrees : frees ⟨.call now name args, .error fault⟩ = false := by
      simp only [frees]
      by_cases hname : name = "free".toList
      · subst hname
        rw [Request.pointer?_eq_none_of_refuses h]
        rfl
      · rw [beq_eq_false_iff_ne.mpr hname, Bool.false_and]
    simp only [charge, hfrees]
    rfl

/-- The record of a call that returns counts as the request that was made. -/
theorem counts_call {now : Instant} {s : Symbol} {args regs : List Value} {r : Request}
    (h : Request.ofFlat now s args = .ok r) (heap : Heap) :
    allocates ⟨.call now s.name.toList args, .ok regs⟩ = r.allocates ∧
      charge heap ⟨.call now s.name.toList args, .ok regs⟩ = r.charge heap := by
  cases s with
  | sprintf | strcpy | memcpy =>
      obtain ⟨target, -, hrest⟩ := Request.follow_bind_eq_ok h
      obtain ⟨source, -, hr⟩ := Request.follow_bind_eq_ok hrest
      cases hr
      exact ⟨rfl, rfl⟩
  | printf | atoi | atol | memset | gettimeofday =>
      obtain ⟨p, -, hr⟩ := Request.follow_bind_eq_ok h
      cases hr
      exact ⟨rfl, rfl⟩
  | free =>
      cases h
      refine ⟨rfl, ?_⟩
      simp only [charge, frees, Request.charge]
      cases pointer? args 0 <;> rfl
  | _ =>
      cases h
      exact ⟨rfl, rfl⟩

theorem effect_returned {now : Instant} {s : Symbol} {args regs : List Value} {r : Request}
    {m m' : Machine} (h : Request.ofFlat now s args = .ok r)
    (hreturns : Request.Returns m r regs m') :
    Effect ⟨.call now s.name.toList args, .ok regs⟩ m m' where
  refers _ hrefers := .inl (hreturns.refers hrefers)
  registers := by
    rcases hreturns.registers with ⟨hadds, hregs, hsize⟩ | ⟨hadds, hpassed, hsize⟩
    · exact .inl ⟨.inr ((counts_call h m.heap).1.trans hadds), hregs, hsize⟩
    · refine .inr ⟨?_, fun b hb => .inr (Request.block_mem_of_passed h (hpassed b hb)), hsize⟩
      simp [creates, (counts_call h m.heap).1, hadds]
  heap := by rw [hreturns.heap_eq, (counts_call h m.heap).2]

theorem effect_of_perform {deed : Deed} {m m' : Machine} {result : Except Fault (List Value)}
    (h : deed.perform m = some (result, m')) : Effect ⟨deed, result⟩ m m' := by
  cases deed with
  | call now name args =>
      rcases Request.call_cases h with
        ⟨fault, rfl, hrefuses, rfl⟩ | ⟨s, r, regs, rfl, hflat, rfl, hreturns⟩
      · exact effect_refused hrefuses
      · exact effect_returned hflat hreturns
  | create run =>
      obtain ⟨rfl, rfl⟩ := Prod.mk.inj (Option.some.inj h)
      refine ⟨fun b hrefers => ?_, .inl ⟨.inl rfl, rfl, by simp [Memory.alloc]⟩, rfl⟩
      rcases Memory.refers_alloc hrefers with hnew | hold
      · exact .inr (List.mem_toArray.mp hnew)
      · exact .inl hold
  | read p i =>
      obtain ⟨rfl, rfl⟩ := Prod.mk.inj (Option.some.inj h)
      refine ⟨fun b hrefers => .inl hrefers, .inr ⟨by simp [creates, allocates], ?_, rfl⟩, rfl⟩
      intro b hb
      obtain hb := List.mem_singleton.mp hb
      exact .inl ⟨p.block, p.offset + i, hb.symm⟩
  | write p i v =>
      obtain ⟨rfl, rfl⟩ := Prod.mk.inj (Option.some.inj h)
      refine ⟨fun b hrefers => ?_, .inr ⟨by simp [creates, allocates], ?_, ?_⟩, rfl⟩
      · rcases Memory.refers_poke hrefers with rfl | hold
        · exact .inr (by simp [Deed.uses])
        · exact .inl hold
      · simp [Record.registers, Except.toOption]
      · exact Memory.size_blocks_poke _ _ _ _

end Record

/-! ## Sessions -/

/-- A machine, and the records of what was done with it, from the first on. -/
structure Ledger where
  machine : Machine
  records : List Record
deriving DecidableEq

namespace Ledger

open CellMachine.Action (pointer? integer)

/-- The values that a program has come by: references to the streams, and what deeds gave. -/
def obtained (l : Ledger) : List Value :=
  [Stream.stdin, .stdout, .stderr].map (fun s => .block s.block) ++
    l.records.flatMap Record.registers

/-- Does a deed, if the program has come by every reference in it. -/
def advance (l : Ledger) (deed : Deed) : Option Ledger :=
  if ∀ v ∈ deed.uses, v.block?.isSome → v ∈ l.obtained then
    (deed.perform l.machine).map fun done => ⟨done.2, l.records ++ [⟨deed, done.1⟩]⟩
  else none

/-- A session from the start of a machine on. -/
def run (config : Config) (deeds : List Deed) : Option Ledger :=
  deeds.foldlM advance ⟨Machine.boot config, []⟩

/-- A cell or something that the program has come by refers to the block. -/
def Knows (l : Ledger) (b : BlockId) : Prop :=
  l.machine.memory.Refers b ∨ .block b ∈ l.obtained

/-- The block of a stream, or one that the program made. -/
def Owns (l : Ledger) (b : BlockId) : Prop :=
  (∃ s : Stream, s.block = b) ∨ ∃ r ∈ l.records, r.creates ∧ .block b ∈ r.registers

/-- A block that an allocating function returned. -/
def Granted (l : Ledger) (b : BlockId) : Prop :=
  ∃ r ∈ l.records, r.allocates ∧ .block b ∈ r.registers

def tally (l : Ledger) : Heap where
  allocations := l.records.countP Record.allocates
  zeroedCells := (l.records.map Record.zeroed).sum
  frees := l.records.countP Record.frees

/-- At no point of a session did anything refer to the block. -/
def Unseen (config : Config) (deeds : List Deed) (b : BlockId) : Prop :=
  ∀ front l, front <+: deeds → run config front = some l → ¬l.Knows b

/-- What a pointer of a session reads does not change with a write into the block. -/
def Apart (config : Config) (deeds : List Deed) (b : BlockId) : Prop :=
  ∀ front l, front <+: deeds → run config front = some l →
    ∀ p q : Pointer, l.Knows p.block → q.block = b →
      ∀ (m : Memory) (i j : Nat) (v : Value), (m.write q i v).read p j = m.read p j

/-! ## The invariant -/

/-- Every reference leads to a block that there is, every block has an origin, and the heap has the
counts of the calls. -/
structure Sound (l : Ledger) : Prop where
  lt_size : ∀ b, l.Knows b → b < l.machine.memory.blocks.size
  origin : ∀ b < l.machine.memory.blocks.size, l.Owns b ∨ l.Granted b
  not_granted : ∀ s : Stream, ¬l.Granted s.block
  heap_eq : l.machine.heap = l.tally

theorem stream_mem_obtained (l : Ledger) (s : Stream) : .block s.block ∈ l.obtained := by
  apply List.mem_append_left
  cases s <;> decide

theorem sound_boot (config : Config) : Sound ⟨Machine.boot config, []⟩ where
  lt_size := by
    rintro b (⟨c, i, hcell⟩ | hobtained)
    · rcases c with _ | _ | _ | c <;> rcases i with _ | i <;> cases hcell
    · simp only [obtained, List.flatMap_nil, List.append_nil] at hobtained
      obtain ⟨s, -, hs⟩ := List.mem_map.mp hobtained
      obtain rfl := Value.block.inj hs
      show s.block < 3
      cases s <;> decide
  origin b hb := by
    refine .inl (.inl ?_)
    rcases b with _ | _ | _ | b
    · exact ⟨.stdin, rfl⟩
    · exact ⟨.stdout, rfl⟩
    · exact ⟨.stderr, rfl⟩
    · exact absurd hb (Nat.not_lt.mpr (Nat.le_add_left 3 b))
  not_granted _ := by
    rintro ⟨r, hr, -⟩
    cases hr
  heap_eq := rfl

/-! One more record. -/

section Concat

variable {l l' : Ledger} {r : Record} (h : l'.records = l.records ++ [r])
include h

theorem obtained_concat : l'.obtained = l.obtained ++ r.registers := by
  simp [obtained, h]

theorem granted_concat {b : BlockId} :
    l'.Granted b ↔ l.Granted b ∨ (r.allocates ∧ .block b ∈ r.registers) := by
  simp [Granted, h, or_and_right, exists_or]

theorem owns_concat {b : BlockId} :
    l'.Owns b ↔ l.Owns b ∨ (r.creates ∧ .block b ∈ r.registers) := by
  simp [Owns, h, or_and_right, exists_or, or_assoc]

theorem tally_concat : l'.tally = r.charge l.tally := by
  simp only [tally, h, Record.charge, List.countP_append, List.countP_singleton, List.map_append,
    List.sum_append, List.map_cons, List.map_nil, List.sum_singleton]
  cases r.allocates <;> cases r.frees <;> rfl

end Concat

theorem advance_cases {l l' : Ledger} {deed : Deed} (h : l.advance deed = some l') :
    (∀ b, .block b ∈ deed.uses → .block b ∈ l.obtained) ∧
      ∃ r : Record, r.deed = deed ∧ l'.records = l.records ++ [r] ∧
        r.Effect l.machine l'.machine := by
  unfold advance at h
  split at h
  case isFalse => cases h
  case isTrue hheld =>
    obtain ⟨⟨result, m'⟩, hperform, rfl⟩ := Option.map_eq_some_iff.mp h
    exact ⟨fun b hb => hheld _ hb rfl, ⟨deed, result⟩, rfl, rfl, Record.effect_of_perform hperform⟩

theorem Sound.advance {l l' : Ledger} {deed : Deed} (hsound : l.Sound)
    (h : l.advance deed = some l') :
    l'.Sound ∧ l.machine.memory.blocks.size ≤ l'.machine.memory.blocks.size := by
  obtain ⟨hheld, r, rfl, hrecords, heffect⟩ := advance_cases h
  have hstream (s : Stream) : s.block < l.machine.memory.blocks.size :=
    hsound.lt_size _ (.inr (l.stream_mem_obtained s))
  have hused {b : BlockId} (hb : l.machine.memory.Refers b ∨ .block b ∈ r.deed.uses) : l.Knows b :=
    hb.imp_right (hheld b)
  have hknows {b : BlockId} (hb : l'.Knows b) : l.Knows b ∨ .block b ∈ r.registers := by
    rcases hb with hcell | hobtained
    · exact .inl (hused (heffect.refers b hcell))
    · rw [obtained_concat hrecords, List.mem_append] at hobtained
      exact hobtained.imp_left .inr
  have hheap : l'.machine.heap = l'.tally := by
    rw [heffect.heap, hsound.heap_eq, tally_concat hrecords]
  -- Either there is one more block, and the new record is its origin, or there is no new reference.
  rcases heffect.registers with ⟨hadds, hregs, hsize⟩ | ⟨hnone, hregs, hsize⟩
  · have hnew {b : BlockId} : .block b ∈ r.registers ↔ b = l.machine.memory.blocks.size := by
      simp [hregs]
    refine ⟨⟨fun b hb => ?_, fun b hb => ?_, fun s hs => ?_, hheap⟩, by omega⟩
    · rw [hsize]
      rcases hknows hb with hold | hb
      · exact Nat.lt_succ_of_lt (hsound.lt_size b hold)
      · exact Nat.lt_succ_of_le (Nat.le_of_eq (hnew.mp hb))
    · rw [owns_concat hrecords, granted_concat hrecords, hnew]
      rw [hsize] at hb
      rcases Nat.lt_succ_iff_lt_or_eq.mp hb with hold | hlast
      · exact (hsound.origin b hold).imp .inl .inl
      · exact hadds.imp (fun hcreates => .inr ⟨hcreates, hlast⟩) fun hallocates =>
          .inr ⟨hallocates, hlast⟩
    · rcases (granted_concat hrecords).mp hs with hold | ⟨-, hlast⟩
      · exact hsound.not_granted s hold
      · exact absurd (hnew.mp hlast) (Nat.ne_of_lt (hstream s))
  · refine ⟨⟨fun b hb => ?_, fun b hb => ?_, fun s hs => ?_, hheap⟩, by omega⟩
    · rw [hsize]
      rcases hknows hb with hold | hb
      · exact hsound.lt_size b hold
      · exact hsound.lt_size b (hused (hregs b hb))
    · rw [owns_concat hrecords, granted_concat hrecords]
      rw [hsize] at hb
      exact (hsound.origin b hb).imp .inl .inl
    · rcases (granted_concat hrecords).mp hs with hold | ⟨hallocates, -⟩
      · exact hsound.not_granted s hold
      · exact absurd (.inr hallocates) hnone

theorem Sound.foldlM {l l' : Ledger} {deeds : List Deed} (hsound : l.Sound)
    (h : deeds.foldlM Ledger.advance l = some l') :
    l'.Sound ∧ l.machine.memory.blocks.size ≤ l'.machine.memory.blocks.size := by
  induction deeds generalizing l with
  | nil =>
      obtain rfl := Option.some.inj h
      exact ⟨hsound, Nat.le_refl _⟩
  | cons deed rest ih =>
      obtain ⟨next, hnext, hrest⟩ := Option.bind_eq_some_iff.mp h
      obtain ⟨hsound', hsize⟩ := hsound.advance hnext
      obtain ⟨hlast, hsize'⟩ := ih hsound' hrest
      exact ⟨hlast, hsize.trans hsize'⟩

theorem sound_run {config : Config} {deeds : List Deed} {l : Ledger}
    (h : run config deeds = some l) : l.Sound :=
  ((sound_boot config).foldlM h).1

/-- A block that is still to be added was never referred to. -/
theorem unseen_of_size_le {config : Config} {deeds : List Deed} {l : Ledger} {b : BlockId}
    (h : run config deeds = some l) (hb : l.machine.memory.blocks.size ≤ b) :
    Unseen config deeds b := by
  rintro front l₀ ⟨rest, rfl⟩ hfront hknows
  rw [run, List.foldlM_append] at h
  obtain ⟨l₁, hl₁, hrest⟩ := Option.bind_eq_some_iff.mp h
  obtain rfl : l₁ = l₀ := Option.some.inj (hl₁.symm.trans hfront)
  have hsound := sound_run hfront
  have hsize := (hsound.foldlM hrest).2
  exact absurd (hsound.lt_size b hknows) (Nat.not_lt.mpr (hsize.trans hb))

theorem Unseen.apart {config : Config} {deeds : List Deed} {b : BlockId}
    (h : Unseen config deeds b) : Apart config deeds b := by
  intro front l hfront hrun p q hp hq m i j v
  apply Memory.read_write_of_ne
  intro hsame
  have hb : p.block = b := hsame.trans hq
  exact absurd (hb ▸ hp) (h front l hfront hrun)

/-! ## Allocations -/

theorem cells_alloc_new (m : Memory) (run : Array Value) :
    (m.alloc run).2.cells m.blocks.size = run := by
  rw [Memory.cells_alloc, if_pos rfl]

theorem offset_lt_of_pointer? {args : List Value} {i : Nat} :
    ∀ p ∈ pointer? args i, p.offset < 2 ^ 63 := by
  intro p hp
  obtain ⟨b, -, rfl⟩ := Option.map_eq_some_iff.mp hp
  exact Int64.toNatClampNeg_lt _

theorem putc_apply_of_memory (code : Int64) (file : Option Pointer) (m : Machine)
    (memory : Memory) :
    Action.putc code file { m with memory := memory } =
      (Action.putc code file m).map fun done => (done.1, { done.2 with memory := memory }) := by
  unfold Action.putc
  cases file.bind Stream.ofPointer? with
  | none => rfl
  | some s => cases s <;> rfl

/-- Over every session, a reference leads to a block of the program, of a stream or of an earlier
allocation.  An allocation gives the first cell of a block that nothing ever referred to.  Resizing
returns its pointer and a release changes no cell.  The heap counts the allocations and zeros that
succeeded and the releases of pointers.  Streams keep their blocks, and no cell decides what stream
a pointer denotes. -/
theorem run_accounts_for_blocks (config : Config) (deeds : List Deed) (l : Ledger)
    (h : run config deeds = some l) :
    (∀ b, l.Knows b → l.Owns b ∨ l.Granted b) ∧
    (∀ (now : Instant) (args : List Value), 1 ≤ args.length →
      ∃ b m', Action.call now "malloc".toList args l.machine = some (.ok [.int 0, .block b], m') ∧
        Unseen config deeds b ∧ Apart config deeds b ∧ m'.memory.cells b = #[]) ∧
    (∀ (now : Instant) (args : List Value), 2 ≤ args.length →
      ∃ b m', Action.call now "calloc".toList args l.machine = some (.ok [.int 0, .block b], m') ∧
        Unseen config deeds b ∧ Apart config deeds b ∧
        ((integer args 0).toInt * (integer args 1).toInt < 2 ^ 63 →
          m'.memory.cells b =
            Array.replicate ((integer args 0).toInt * (integer args 1).toInt).toNat (.int 0))) ∧
    (∀ (now : Instant) (args : List Value), 3 ≤ args.length →
      ∃ offset tail, Pointer.ofPair offset tail = pointer? args 0 ∧
        Action.call now "realloc".toList args l.machine = some (.ok [offset, tail], l.machine)) ∧
    (∀ (now : Instant) (args : List Value), 1 ≤ args.length →
      ∃ m', Action.call now "free".toList args l.machine = some (.ok [], m') ∧
        m'.memory = l.machine.memory) ∧
    l.machine.heap.allocations = l.records.countP Record.allocates ∧
    l.machine.heap.zeroedCells = (l.records.map Record.zeroed).sum ∧
    l.machine.heap.frees = l.records.countP Record.frees ∧
    (∀ s t : Stream, s.block = t.block → s = t) ∧
    (∀ s : Stream, s.block < l.machine.memory.blocks.size ∧ ¬l.Granted s.block) ∧
    (∀ (file : Pointer) (s : Stream), Stream.ofPointer? file = some s ↔ file.block = s.block) ∧
    ∀ (code : Int64) (file : Option Pointer) (memory : Memory),
      Action.putc code file { l.machine with memory := memory } =
        (Action.putc code file l.machine).map fun done =>
          (done.1, { done.2 with memory := memory }) := by
  have hsound := sound_run h
  have hunseen : Unseen config deeds l.machine.memory.blocks.size :=
    unseen_of_size_le h (Nat.le_refl _)
  refine ⟨fun b hb => hsound.origin b (hsound.lt_size b hb), fun now args hcount => ?_,
    fun now args hcount => ?_, fun now args hcount => ?_, fun now args hcount => ?_,
    congrArg Heap.allocations hsound.heap_eq, congrArg Heap.zeroedCells hsound.heap_eq,
    congrArg Heap.frees hsound.heap_eq, ?_, fun s => ⟨?_, hsound.not_granted s⟩,
    fun file s => Stream.ofPointer?_eq_some_iff,
    fun code file memory => putc_apply_of_memory code file l.machine memory⟩
  · refine ⟨_, l.machine.allocate.2, ?_, hunseen, hunseen.apart, cells_alloc_new _ _⟩
    exact congrFun (Request.call_eq_perform now .malloc hcount rfl) l.machine
  · refine ⟨_, (l.machine.allocateZeroed (integer args 0) (integer args 1)).2, ?_, hunseen,
      hunseen.apart, fun hfits => ?_⟩
    · exact congrFun (Request.call_eq_perform now .calloc hcount rfl) l.machine
    · rw [Machine.allocateZeroed, cells_alloc_new, Machine.zeroedLength_eq, Machine.zeroedCells,
        Int.min_eq_left (by omega)]
  · obtain ⟨offset, tail, hpair, hpointer, -, -⟩ :=
      Pointer.exists_pairOf (@offset_lt_of_pointer? args 0)
    refine ⟨offset, tail, hpointer, ?_⟩
    rw [← hpair]
    exact congrFun (Request.call_eq_perform now .realloc hcount rfl) l.machine
  · refine ⟨l.machine.release (pointer? args 0), ?_, ?_⟩
    · exact congrFun (Request.call_eq_perform now .free hcount rfl) l.machine
    · unfold Machine.release
      split <;> rfl
  · intro s t
    cases s <;> cases t <;> decide
  · exact hsound.lt_size _ (.inr (l.stream_mem_obtained s))

/-- A block of the program refers to an allocation, which is made to refer to itself; of two
releases one is of null, and a last allocation is refused. -/
theorem run_accounts_for_blocks_cyclic :
    let now : Instant := { seconds := 0, microseconds := 0 }
    let own : Pointer := { block := 3 }
    let deeds : List Deed :=
      [.create [.int 7], .call now "malloc".toList [.int 4], .write own 1 (.block 4),
        .call now "memcpy".toList [.int 0, .block 4, .int 0, .block 3, .int 2],
        .read { block := 4 } 1, .call now "calloc".toList [.int 2, .int 3],
        .call now "free".toList [.int 1, .block 4], .call now "free".toList [.int 1, .null],
        .call now "calloc".toList [.int 1]]
    ∃ l, run {} deeds = some l ∧ l.machine.memory.Refers 4 ∧ (l.Owns 4 ∨ l.Granted 4) ∧
      l.machine.heap = { allocations := 2, zeroedCells := 6, frees := 1 } ∧
      l.records.countP Record.allocates = 2 ∧ (l.records.map Record.zeroed).sum = 6 ∧
      l.records.countP Record.frees = 1 ∧
      ∃ b m', Action.call now "malloc".toList [.int 0] l.machine =
        some (.ok [.int 0, .block b], m') ∧ Unseen {} deeds b := by
  intro now own deeds
  have hrun : run {} deeds = some
      { machine :=
          { memory :=
              { blocks := #[#[.int 0], #[.int 0], #[.int 0], #[.int 7, .block 4],
                  #[.int 7, .block 4], Array.replicate 6 (.int 0)] }
            heap := { allocations := 2, zeroedCells := 6, frees := 1 } }
        records := List.zipWith Record.mk deeds
          [.ok [.int 0, .block 3], .ok [.int 0, .block 4], .ok [], .ok [.int 0, .block 4],
            .ok [.block 4], .ok [.int 0, .block 5], .ok [], .ok [],
            .error (.argumentCount .calloc 1)] } := by decide +kernel
  have hrefers : Memory.Refers
      { blocks := #[#[.int 0], #[.int 0], #[.int 0], #[.int 7, .block 4], #[.int 7, .block 4],
          Array.replicate 6 (.int 0)] } 4 := ⟨4, 1, rfl⟩
  obtain ⟨hknown, hmalloc, -, -, -, hallocations, hzeroed, hfrees, -⟩ :=
    run_accounts_for_blocks {} deeds _ hrun
  obtain ⟨b, m', hcall, hunseen, -⟩ := hmalloc now [.int 0] (by decide)
  exact ⟨_, hrun, hrefers, hknown 4 (.inl hrefers), rfl, hallocations.symm, hzeroed.symm,
    hfrees.symm, b, m', hcall, hunseen⟩

end Ledger

end CellMachine
