import CellMachine.Command
import Std.Time.DateTime.Timestamp
/-!
# Running the command

The clock of timed computations is the system's.
-/

namespace CellMachine

/-- The time on the system's clock. -/
def systemTime : IO Instant := do
  let nanoseconds := (← Std.Time.Timestamp.now).toNanosecondsSinceUnixEpoch.toInt.toNat
  return { seconds := nanoseconds / 1000000000, microseconds := nanoseconds / 1000 % 1000000 }

/-- Never returns. -/
partial def waitForever (α : Type) : IO α := do
  IO.sleep 1000
  waitForever α

/-- Performs a timed computation. -/
def Timed.perform {α : Type} : Timed α → IO α
  | .done a => return a
  | .look next => do (next (← systemTime)).perform
  | .never => waitForever α

end CellMachine

open CellMachine in
/-- Runs the sample program that the command line names. -/
def main (args : List String) : IO UInt32 := do
  let self := (← IO.appPath).fileName.getD ""
  let outcome ← (Command.run self.toList (args.map String.toList)).perform
  IO.print (String.ofList outcome.stdout)
  IO.eprint (String.ofList outcome.stderr)
  return outcome.code.toUInt32
