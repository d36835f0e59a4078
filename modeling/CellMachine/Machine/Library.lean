import CellMachine.Double.Bits
import CellMachine.Machine.Basic
/-!
# The library functions

Each function is an action on the machine.  An action may fail with a fault, and the machine is kept
then too; or it may never return, or be stopped by an arithmetic overflow, which is no result at
all.
-/

namespace CellMachine

/-- A computation on a machine: no result if it does not return, else a fault or a value, and the
machine behind it. -/
abbrev Action := ExceptT Fault (StateT Machine Option)

/-- A point in time, counted from the epoch. -/
structure Instant where
  seconds : Nat
  microseconds : Nat
deriving DecidableEq

namespace Action

variable {α β : Type}

@[simp] theorem pure_apply (a : α) (m : Machine) : (pure a : Action α) m = some (.ok a, m) := rfl

@[simp] theorem throw_apply (f : Fault) (m : Machine) :
    (throw f : Action α) m = some (.error f, m) := rfl

@[simp] theorem get_apply (m : Machine) : (get : Action Machine) m = some (.ok m, m) := rfl

@[simp] theorem set_apply (next m : Machine) : (set next : Action Unit) m = some (.ok (), next) :=
  rfl

@[simp] theorem modify_apply (change : Machine → Machine) (m : Machine) :
    (modify change : Action Unit) m = some (.ok (), change m) := rfl

/-- A fault ends a sequence where it arises. -/
theorem bind_apply (x : Action α) (f : α → Action β) (m : Machine) :
    (x >>= f) m = match x m with
      | none => none
      | some (.ok a, next) => f a next
      | some (.error fault, next) => some (.error fault, next) := by
  show (ExceptT.bind x f : StateT Machine Option _) m = _
  simp only [ExceptT.bind, ExceptT.mk, bind, StateT.bind, Option.bind]
  cases x m with
  | none => rfl
  | some outcome =>
      obtain ⟨result, next⟩ := outcome
      cases result <;> rfl

/-- Replaces the memory; no result if there is none to put in its place. -/
def updateMemory (change : Memory → Option Memory) : Action Unit :=
  fun m => (change m.memory).map fun memory => (.ok (), { m with memory := memory })

/-- The text of a template in memory; no result if its arithmetic overflows. -/
def format (template : Pointer) (values : List Value) : Action Text := fun m =>
  (Template.checkedFormat m.memory (m.memory.textAt template) values).map fun rendered =>
    (rendered.mapError .format, m)

/-- Writes the text of a template to the standard output and counts its characters. -/
def print (template : Pointer) (values : List Value) : Action Int64 := do
  let text ← format template values
  modify fun m => { m with stdout := m.stdout.write text }
  return Int64.ofNat text.length

/-- Prints variadic arguments passed as flat values. -/
def printf (template : Pointer) (values : List Value) : Action Int64 := do
  print template (Vararg.resolveAll (← get).memory values)

/-- Prints arguments of known kinds. -/
def printfTagged (template : Pointer) (args : List Vararg) : Action Int64 := do
  print template (args.map (Vararg.resolve (← get).memory))

/-- Writes the text of a template into memory and counts its characters. -/
def sprintf (target template : Pointer) (values : List Value) : Action Int64 := do
  let text ← format template (Vararg.resolveAll (← get).memory values)
  let m ← get
  let (count, memory) := m.memory.storeText target text
  set { m with memory := memory }
  return Int64.ofNat count

/-- Writes a character to the standard output. -/
def putchar (code : Int64) : Action Int64 := do
  modify fun m => { m with stdout := m.stdout.putChar (Text.ofCode code) }
  return code

/-- What a function returns that could not write. -/
def endOfFile : Int64 := -1

/-- Writes a character to the stream of a file pointer. -/
def putc (code : Int64) (file : Option Pointer) : Action Int64 := do
  match file.bind Stream.ofPointer? with
  | some .stdout =>
    modify fun m => { m with stdout := m.stdout.putChar (Text.ofCode code) }
    return code
  | some .stderr =>
    modify fun m => { m with stderr := m.stderr.putChar (Text.ofCode code) }
    return code
  | _ => return endOfFile

/-- Allocates an empty block. -/
def malloc : Action Pointer := do
  let (p, m) := (← get).allocate
  set m
  return p

/-- Allocates a block of zeros. -/
def calloc (count size : Int64) : Action Pointer := do
  let (p, m) := (← get).allocateZeroed count size
  set m
  return p

/-- Resizes an allocation. -/
def realloc (p : Option Pointer) : Action (Option Pointer) := do
  return (← get).resize p

/-- Releases an allocation. -/
def free (p : Option Pointer) : Action Unit := modify (·.release p)

/-- The integer at the head of a text in memory. -/
def atol (text : Pointer) : Action Int64 := do
  return Numeral.leadingInt ((← get).memory.textAt text)

/-- The same, reduced to 32 bits. -/
def atoi (text : Pointer) : Action Int64 := do
  return (← atol text).toInt32.toInt64

/-- Copies a text. -/
def strcpy (target source : Pointer) : Action Pointer := do
  updateMemory fun memory => memory.copyText target source
  return target

/-- Sets cells to an integer. -/
def memset (target : Pointer) (n count : Int64) : Action Pointer := do
  updateMemory fun memory => memory.fill target n count
  return target

/-- Copies cells. -/
def memcpy (target source : Pointer) (count : Int64) : Action Pointer := do
  updateMemory fun memory => some (memory.moveCells target source count)
  return target

/-- Writes the time into two cells. -/
def gettimeofday (now : Instant) (target : Pointer) : Action Int64 := do
  updateMemory fun memory =>
    some (memory.writeAll target
      [.int (Int64.ofNat now.seconds), .int (Int64.ofNat now.microseconds)])
  return 0

/-- A function of floating-point hardware on doubles. -/
def onFloat (f : Float → Float) (x : Double) : Double := .ofFloat (f x.toFloat)

/-- A double raised to the power of another. -/
def power (base exponent : Double) : Double :=
  .ofFloat (Float.pow base.toFloat exponent.toFloat)

end Action

end CellMachine
