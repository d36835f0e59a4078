import CellMachine.Machine.Library
/-!
# Timed computations

A computation that may look at the clock as it goes, and may never return.  What the clock shows is
left open: `run` takes the readings from a list without end.
-/

namespace CellMachine

/-- A computation that reads the clock. -/
inductive Timed (α : Type) where
  /-- It has returned. -/
  | done (a : α)
  /-- It goes on with the time of its next look at the clock. -/
  | look (next : Instant → Timed α)
  /-- It never returns. -/
  | never

namespace Timed

/-- One computation after another. -/
def bind {α β : Type} : Timed α → (α → Timed β) → Timed β
  | .done a, f => f a
  | .look next, f => .look fun now => (next now).bind f
  | .never, _ => .never

instance : Monad Timed where
  pure := .done
  bind := bind

/-- A computation without a clock, which may have no result. -/
def ofOption {α : Type} : Option α → Timed α
  | some a => .done a
  | none => .never

/-- The result when the clock shows the given readings, one after another. -/
def run {α : Type} (readings : Nat → Instant) : Timed α → Option α
  | .done a => some a
  | .look next => (next (readings 0)).run fun n => readings (n + 1)
  | .never => none

theorem bind_done {α : Type} (x : Timed α) : x.bind .done = x := by
  induction x with
  | done => rfl
  | look next ih => simp only [bind, ih]
  | never => rfl

theorem bind_assoc {α β γ : Type} (x : Timed α) (f : α → Timed β) (g : β → Timed γ) :
    (x.bind f).bind g = x.bind fun a => (f a).bind g := by
  induction x with
  | done => rfl
  | look next ih => simp only [bind, ih]
  | never => rfl

instance : LawfulMonad Timed :=
  LawfulMonad.mk' Timed bind_done (fun _ _ => rfl) bind_assoc

end Timed

end CellMachine
