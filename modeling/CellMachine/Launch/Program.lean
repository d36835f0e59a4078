import CellMachine.Launch.Entry
import CellMachine.Launch.Registry
import CellMachine.Launch.Timed
import CellMachine.Machine.Call
/-!
# Programs

A program has state of its own, initializers that work on memory, and a main function that works on
the machine.  To launch it is to register its initializers, run them, enter main with the command
line, and end the streams when main returns, whether with a code or with a fault.
-/

namespace CellMachine

/-- A machine and the state of the program on it. -/
structure Job (σ : Type) where
  machine : Machine
  own : σ

/-- What an initializer may do: it sees memory and the program's own state. -/
abbrev Setup (σ : Type) := StateT (Memory × σ) Timed

/-- What a program may do once it runs. -/
abbrev Session (σ : Type) := ExceptT Fault (StateT (Job σ) Timed)

/-- A program with state `σ` of its own. -/
structure Program (σ : Type) where
  /-- Places the program's globals in memory. -/
  load : Memory → σ × Memory
  /-- Registers the initializers. -/
  register : Registration (Setup σ) Unit := pure ()
  /-- The main function; its result is the exit code. -/
  main : Entry → Session σ Int64

namespace Session

variable {σ α : Type}

/-- A part of the program's work that the machine does. -/
def ofAction (action : Action α) : Session σ α := fun job =>
  (Timed.ofOption (action job.machine)).bind fun outcome =>
    .done (outcome.1, { job with machine := outcome.2 })

/-- A part of the program's work that needs no machine. -/
def ofSetup (setup : Setup σ α) : Session σ α := fun job =>
  (setup (job.machine.memory, job.own)).bind fun outcome =>
    .done (.ok outcome.1,
      { machine := { job.machine with memory := outcome.2.1 }, own := outcome.2.2 })

/-- Calls a library function by name. -/
def call (name : Text) (args : List Value) : Session σ (List Value) := fun job =>
  .look fun now => ofAction (Action.call now name args) job

/-- The memory. -/
def memory : Session σ Memory := do return (← get).machine.memory

/-- Replaces the memory. -/
def setMemory (m : Memory) : Session σ Unit :=
  modify fun job => { job with machine := { job.machine with memory := m } }

/-- Adds a block that holds a text. -/
def literal (text : Text) : Session σ Pointer := do
  let (p, m) := (← memory).allocText text
  setMemory m
  return p

/-- Prints variadic arguments under a template. -/
def printf (template : Text) (args : List Value) : Session σ (List Value) := do
  call "printf".toList ((← literal template).toPair ++ args)

/-- Uses a registry, and keeps what becomes of it. -/
def withRegistry (registry : Registry (Setup σ)) (use : Registration (Setup σ) α) :
    Session σ (α × Registry (Setup σ)) := do
  let (outcome, registry) ← ofSetup (use.run.run registry)
  match outcome with
  | .ok a => return (a, registry)
  | .error fault => throw fault

/-- Ends the streams behind a computation, also if it fails. -/
def thenShutdown (body : Session σ α) : Session σ α := fun job =>
  (body job).bind fun outcome =>
    .done (outcome.1, { outcome.2 with machine := outcome.2.machine.shutdown })

end Session

namespace Program

variable {σ : Type}

/-- The course of a program that is loaded. -/
def course (program : Program σ) (args : List Text) : Session σ Int64 := do
  let ((), registry) ← Session.withRegistry {} program.register
  let job ← get
  let (entry, packed) := Entry.pack job.machine.memory args job.machine.config.stackCells
  Session.setMemory packed
  let _ ← Session.withRegistry registry Registry.runAll
  Session.thenShutdown (program.main entry)

/-- Loads a program and runs it with a command line, the program's name first: its exit code or its
fault, and what it leaves. -/
def launch (program : Program σ) (machine : Machine) (args : List Text) :
    Timed (Except Fault Int64 × Job σ) :=
  let (own, memory) := program.load machine.memory
  program.course args { machine := { machine with memory := memory }, own := own }

end Program

end CellMachine
