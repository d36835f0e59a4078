import CellMachine.Launch.Program
/-!
# The echo program

Prints a banner, the number of arguments, each argument behind its number, and the last argument
backwards.  The banner is a global that an initializer fills.
-/

namespace CellMachine.Echo

/-- Copies the banner's text into its global. -/
def fillBanner : Setup Pointer Unit := fun (m, banner) =>
  let (source, m) := m.allocText "clue echo".toList
  (Timed.ofOption (m.copyText banner source)).bind fun m => .done ((), (m, banner))

/-- Prints an argument behind its number. -/
def printArgument (entry : Entry) (line : Pointer) (i : Nat) : Session Pointer Unit := do
  let arg := entry.argPointer (← Session.memory) i
  let _ ← Session.call "printf".toList
    (line.toPair ++ [.int 2, .int (Int64.ofNat i)] ++ Pointer.pairOf arg)

/-- Prints a text in memory backwards. -/
def printReversed (text : Pointer) : Session Pointer Unit := do
  let m ← Session.memory
  for i in (List.range (m.textAt text).length).reverse do
    let _ ← Session.call "putchar".toList [m.read text i]
  let _ ← Session.call "putchar".toList [.int (Text.toCode '\n')]

/-- The main function. -/
def main (entry : Entry) : Session Pointer Int64 := do
  let banner := (← get).own
  let _ ← Session.printf "%s\n".toList banner.toPair
  let _ ← Session.printf "argc=%d\n".toList [.int (Int64.ofNat entry.argc)]
  let line ← Session.literal "%2$*1$d: %3$s\n".toList
  for i in List.range entry.argc do
    printArgument entry line i
  if 0 < entry.argc then
    match entry.argPointer (← Session.memory) (entry.argc - 1) with
    | some last => printReversed last
    | none => pure ()
  return 0

/-- The program; its own state is the pointer to the banner. -/
def program : Program Pointer where
  load m :=
    let (block, m) := m.alloc (Array.replicate 16 (.int 0))
    ({ block := block }, m)
  register := Registry.register fillBanner
  main := main

end CellMachine.Echo
