import CellMachine.Machine.Fault
/-!
# Initializers

A program registers initializers; they are run once, in the order of registration, and the registry
is closed from then on.
-/

namespace CellMachine

/-- The initializers that wait to be run, and whether they have been. -/
structure Registry (m : Type → Type) where
  pending : List (m Unit) := []
  drained : Bool := false

/-- A use of the registry; the initializers that it runs act in `m`. -/
abbrev Registration (m : Type → Type) := ExceptT Fault (StateT (Registry m) m)

namespace Registry

variable {m : Type → Type} [Monad m]

/-- Adds an initializer, unless they have been run. -/
def register (initializer : m Unit) : Registration m Unit := do
  let registry ← get
  if registry.drained then throw .initializersAlreadyRun
  else set { registry with pending := registry.pending ++ [initializer] }

/-- Runs every initializer and tells how many there were, unless they have been run. -/
def runAll : Registration m Nat := do
  let registry ← get
  if registry.drained then throw .initializersAlreadyRun
  else
    set { pending := [], drained := true : Registry m }
    for initializer in registry.pending do
      (initializer : m Unit)
    return registry.pending.length

end Registry

end CellMachine
