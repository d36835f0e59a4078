import CellMachine.Sample.Echo
import CellMachine.Sample.PartialSums
/-!
# The sample programs by name
-/

namespace CellMachine

/-- A sample program. -/
inductive Sample where
  | echo
  | partialSums
deriving DecidableEq

namespace Sample

/-- Every sample program. -/
def all : List Sample := [.echo, .partialSums]

/-- The name of a program. -/
def name : Sample → String
  | .echo => "echo"
  | .partialSums => "partialsums"

/-- The program with a name. -/
def lookup (name : Text) : Except Fault Sample :=
  match all.find? fun s => s.name.toList == name with
  | some s => .ok s
  | none => .error (.unknownProgram name)

/-- Launches a program on a machine: its exit code or its fault, and the machine behind it. -/
def launch (s : Sample) (machine : Machine) (args : List Text) :
    Timed (Except Fault Int64 × Machine) :=
  match s with
  | .echo => do
    let (outcome, job) ← Echo.program.launch machine args
    return (outcome, job.machine)
  | .partialSums => do
    let (outcome, job) ← PartialSums.program.launch machine args
    return (outcome, job.machine)

end Sample

end CellMachine
