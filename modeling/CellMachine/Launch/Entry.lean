import CellMachine.Memory.Terminated
/-!
# The command line in memory

A program finds its arguments as a table of pointers to texts, closed by a null pointer, and a
stack of zeros.
-/

namespace CellMachine

/-- What a program is entered with. -/
structure Entry where
  stack : Pointer
  argc : Nat
  argv : Pointer
deriving DecidableEq

namespace Entry

/-- Adds a block for each text. -/
def allocTexts (m : Memory) : List Text → List Pointer × Memory
  | [] => ([], m)
  | text :: rest =>
    let first := m.allocText text
    let others := allocTexts first.2 rest
    (first.1 :: others.1, others.2)

/-- Puts a command line into memory. -/
def pack (m : Memory) (args : List Text) (stackCells : Nat) : Entry × Memory :=
  let texts := allocTexts m args
  let table := (texts.1.map some ++ [none]).flatMap Pointer.pairOf
  let argv := texts.2.alloc table.toArray
  let stack := argv.2.alloc (Array.replicate stackCells (.int 0))
  ({ stack := { block := stack.1 }, argc := args.length, argv := { block := argv.1 } }, stack.2)

/-- The pointer to an argument; none from the end of the table on. -/
def argPointer (entry : Entry) (m : Memory) (i : Nat) : Option Pointer :=
  m.loadPointer entry.argv (2 * i)

/-- The text of an argument. -/
def arg (entry : Entry) (m : Memory) (i : Nat) : Option Text :=
  (entry.argPointer m i).map m.textAt

end Entry

end CellMachine
