import CellMachine.Sample.Catalogue
/-!
# The command line

The first argument names a sample program, which receives all arguments, its name first.
-/

namespace CellMachine

/-- What the command prints and the code that it exits with. -/
structure Outcome where
  code : Int32
  stdout : Text := []
  stderr : Text := []
deriving DecidableEq

namespace Command

/-- How to use the command, which was invoked as `self`. -/
def usage (self : Text) : Text :=
  "Error: No program name provided\n\nUsage: ".toList ++ self ++
    " <program> [args...]\n\nPrograms:\n".toList ++
    Sample.all.flatMap (fun s => "  ".toList ++ s.name.toList ++ ['\n']) ++
    "\nExample:\n  ".toList ++ self ++ " partialsums 2500\n".toList

/-- Lines as they are printed. -/
def printed (lines : List Text) : Text := lines.flatMap (· ++ ['\n'])

/-- Runs the command, which was invoked as `self`. -/
def run (self : Text) (args : List Text) : Timed Outcome :=
  match args with
  | [] => return { code := 1, stderr := usage self }
  | name :: _ =>
    match Sample.lookup name with
    | .error fault =>
      return { code := 1, stderr := "Error: ".toList ++ fault.message.toList ++ ['\n'] }
    | .ok sample => do
      let (result, machine) ← sample.launch (Machine.boot {}) args
      let stdout := printed machine.stdout.lines
      let stderr := printed machine.stderr.lines
      match result with
      | .ok code => return { code := code.toInt32, stdout := stdout, stderr := stderr }
      | .error fault =>
        return { code := 2, stdout := stdout
                 stderr := stderr ++ "Runtime error: ".toList ++ fault.message.toList ++ ['\n'] }

end Command

end CellMachine
