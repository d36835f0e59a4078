import CellMachine.Launch.Program
/-!
# The partial sums program

Nine series are summed in floating-point arithmetic, term by term from the first, up to an index
that the first argument gives.  The time that this took is printed last.
-/

namespace CellMachine.PartialSums

/-- A series by its terms, from index `first` on. -/
structure Series where
  label : String
  first : Nat := 1
  term : Nat → Float

/-- The sum of the terms up to index `last`, added from the left. -/
def Series.sum (s : Series) (last : Int) : Float :=
  (last + 1 - s.first).toNat.fold (fun i _ sum => sum + s.term (s.first + i)) 0.0

/-- `1` at odd indices and `-1` at even ones. -/
def alternating (k : Nat) : Float := if k % 2 = 1 then 1.0 else -1.0

/-- The series in the order of their lines. -/
def series : List Series :=
  [{ label := "(2/3)^k", first := 0, term := fun k => Float.pow (2.0 / 3.0) (Float.ofNat k) },
   { label := "k^-0.5", term := fun k => 1.0 / Float.sqrt (Float.ofNat k) },
   { label := "1/k(k+1)", term := fun k =>
       let x := Float.ofNat k
       1.0 / (x * (x + 1.0)) },
   { label := "Flint Hills", term := fun k =>
       let x := Float.ofNat k
       let y := Float.sin x
       1.0 / (x * x * x * y * y) },
   { label := "Cookson Hills", term := fun k =>
       let x := Float.ofNat k
       let y := Float.cos x
       1.0 / (x * x * x * y * y) },
   { label := "Harmonic", term := fun k => 1.0 / Float.ofNat k },
   { label := "Riemann Zeta", term := fun k =>
       let x := Float.ofNat k
       1.0 / (x * x) },
   { label := "Alternating Harmonic", term := fun k => alternating k / Float.ofNat k },
   { label := "Gregory", term := fun k => alternating k / (2.0 * Float.ofNat k - 1.0) }]

/-- The last index if the command line gives none. -/
def defaultLast : Int64 := 25000

/-- The time in seconds, read through two cells. -/
def seconds (cells : Pointer) : Session Unit Float := do
  let _ ← Session.call "gettimeofday".toList (cells.toPair ++ [.int 0, .null])
  let m ← Session.memory
  return (m.read cells 0).toDouble.toFloat + (m.read cells 1).toDouble.toFloat / 1000000.0

/-- The last index of the sums. -/
def lastIndex (entry : Entry) : Session Unit Int64 := do
  match entry.argPointer (← Session.memory) 1 with
  | some arg => return Action.integer (← Session.call "atoi".toList arg.toPair) 0
  | none => return defaultLast

/-- Prints the line of a series. -/
def printSum (last : Int64) (s : Series) : Session Unit Unit := do
  let _ ← Session.printf ("%.9f\t".toList ++ s.label.toList ++ ['\n'])
    [.float (.ofFloat (s.sum last.toInt))]

/-- The main function. -/
def main (entry : Entry) : Session Unit Int64 := do
  let registers ← Session.call "calloc".toList [.int 2, .int 1]
  match Action.pointer? registers 0 with
  | none => throw (.nullPointer .calloc)
  | some cells =>
    let start ← seconds cells
    let last ← lastIndex entry
    for s in series do
      printSum last s
    let elapsed := (← seconds cells) - start
    let _ ← Session.printf "\nELAPSEDTIME=%f\n".toList [.float (.ofFloat elapsed)]
    let _ ← Session.call "free".toList cells.toPair
    return 0

/-- The program; it has no state of its own. -/
def program : Program Unit where
  load m := ((), m)
  main := main

end CellMachine.PartialSums
