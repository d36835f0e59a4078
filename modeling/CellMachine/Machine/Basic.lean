import CellMachine.LineBuffer
import CellMachine.Machine.Fault
import CellMachine.Machine.Vararg
/-!
# The machine

What the calls of a program share: memory, allocation counts and the two output streams.
-/

namespace CellMachine

/-- Settings of a machine. -/
structure Config where
  /-- Cells of the stack that a program is given. -/
  stackCells : Nat := 1024
  /-- Whether text without a newline is emitted as a last line at the end. -/
  flushPartialLine : Bool := true
deriving DecidableEq

/-- Counts of allocations. -/
structure Heap where
  allocations : Nat := 0
  /-- Cells that were allocated as zeros. -/
  zeroedCells : Nat := 0
  /-- Releases of pointers other than null. -/
  frees : Nat := 0
deriving DecidableEq

/-- A standard stream. -/
inductive Stream where
  | stdin
  | stdout
  | stderr
deriving DecidableEq

namespace Stream

/-- The block that a stream's file pointers lie in. -/
def block : Stream → BlockId
  | .stdin => 0
  | .stdout => 1
  | .stderr => 2

/-- The stream of a file pointer. -/
def ofPointer? (file : Pointer) : Option Stream :=
  [Stream.stdout, .stderr, .stdin].find? fun s => s.block == file.block

end Stream

/-- A machine that runs a program. -/
structure Machine where
  config : Config := {}
  memory : Memory
  heap : Heap := {}
  stdout : LineBuffer := {}
  stderr : LineBuffer := {}
deriving DecidableEq

namespace Machine

/-- A machine at the start: its memory holds one block for each stream. -/
def boot (config : Config) : Machine where
  config := config
  memory := { blocks := #[#[.int 0], #[.int 0], #[.int 0]] }

/-- Adds an empty block. -/
def allocate (m : Machine) : Pointer × Machine :=
  let added := m.memory.alloc #[]
  ({ block := added.1 },
    { m with memory := added.2, heap := { m.heap with allocations := m.heap.allocations + 1 } })

/-- How many cells `count` elements of `size` cells take: their product within 64 bits, and none if
it is negative. -/
def zeroedLength (count size : Int64) : Nat :=
  (Int64.ofIntClamp (count.toInt * size.toInt)).toNatClampNeg

/-- Adds a block of zeros. -/
def allocateZeroed (m : Machine) (count size : Int64) : Pointer × Machine :=
  let length := zeroedLength count size
  let added := m.memory.alloc (Array.replicate length (.int 0))
  ({ block := added.1 },
    { m with
      memory := added.2
      heap := { m.heap with
        allocations := m.heap.allocations + 1
        zeroedCells := m.heap.zeroedCells + length } })

/-- A block is as large as its use needs, so the pointer stays. -/
def resize (_m : Machine) (p : Option Pointer) : Option Pointer := p

/-- Blocks are never reused; a release is only counted. -/
def release (m : Machine) (p : Option Pointer) : Machine :=
  if p.isSome then { m with heap := { m.heap with frees := m.heap.frees + 1 } } else m

/-- Ends both streams as the configuration says. -/
def shutdown (m : Machine) : Machine :=
  if m.config.flushPartialLine then
    { m with stdout := m.stdout.finish, stderr := m.stderr.finish }
  else { m with stdout := m.stdout.flush, stderr := m.stderr.flush }

end Machine

end CellMachine
