import CellMachine.Proofs.Conditions
import CellMachine.Proofs.Launch
import CellMachine.Proofs.Sprintf
/-!
# Computations that return

What is promised of a program is total: it returns, whatever the clock shows, and then something
holds.  `Achieves` says so of a computation from one property of the job to another.  The rules
follow the ways in which programs are put together: one step after another, a call, and a loop that
carries an invariant.
-/

namespace CellMachine

namespace Timed

variable {α β : Type}

/-- Whatever the clock shows, there is a result, and it has the property. -/
def Yields (P : α → Prop) : Timed α → Prop
  | .done a => P a
  | .look next => ∀ now, (next now).Yields P
  | .never => False

theorem Yields.mono {P Q : α → Prop} {x : Timed α} (h : x.Yields P) (hPQ : ∀ a, P a → Q a) :
    x.Yields Q := by
  induction x with
  | done a => exact hPQ a h
  | look next ih => exact fun now => ih now (h now)
  | never => exact h

theorem yields_bind {P : β → Prop} (x : Timed α) (f : α → Timed β) :
    (x.bind f).Yields P ↔ x.Yields fun a => (f a).Yields P := by
  induction x with
  | done a => exact Iff.rfl
  | look next ih => exact forall_congr' ih
  | never => exact Iff.rfl

/-- The result is there for each sequence of readings. -/
theorem Yields.exists_run {P : α → Prop} {x : Timed α} (h : x.Yields P)
    (readings : Nat → Instant) : ∃ a, x.run readings = some a ∧ P a := by
  induction x generalizing readings with
  | done a => exact ⟨a, rfl, h⟩
  | look next ih => exact ih (readings 0) (h (readings 0)) _
  | never => exact h.elim

end Timed

namespace Action

theorem pointer?_toPair_append {p : Pointer} (h : p.offset < 2 ^ 63) (rest : List Value) :
    pointer? (p.toPair ++ rest) 0 = some p := by
  have hoffset : (Int64.ofNat p.offset).toNatClampNeg = p.offset :=
    Int64.toNatClampNeg_ofNat_of_lt h
  show some { block := p.block, offset := (Int64.ofNat p.offset).toNatClampNeg } = some p
  rw [hoffset]

theorem call_printf {template : Pointer} {values : List Value} {m : Machine} {text : Text}
    (hoffset : template.offset < 2 ^ 63)
    (h : Template.checkedFormat m.memory (m.memory.textAt template)
      (Vararg.resolveAll m.memory values) = some (.ok text)) (now : Instant) :
    call now "printf".toList (template.toPair ++ values) m =
      some (.ok [.int (Int64.ofNat text.length)], { m with stdout := m.stdout.write text }) := by
  have hread : Request.ofFlat now .printf (template.toPair ++ values) =
      .ok (.printf template values) := by
    simp only [Request.ofFlat, Request.follow, pointer?_toPair_append hoffset]
    rfl
  have hcount : Symbol.printf.arity ≤ (template.toPair ++ values).length :=
    Nat.le_add_left 2 values.length
  refine (congrFun (Request.call_eq_perform now .printf hcount hread) m).trans ?_
  simp only [Request.perform, bind_apply, printf_apply, h, Option.map_some, pure_apply]

theorem call_putchar (now : Instant) (v : Value) (m : Machine) :
    call now "putchar".toList [v] m =
      some (.ok [.int v.toInt64],
        { m with stdout := m.stdout.putChar (Text.ofCode v.toInt64) }) := rfl

end Action

namespace Session

variable {σ α β : Type}

/-- From every job with the property `P` the computation returns a value, and `Q` holds of it and
of the job then. -/
structure Achieves (P : Job σ → Prop) (x : Session σ α) (Q : α → Job σ → Prop) : Prop where
  yields : ∀ job, P job → (x job).Yields fun ended => ∃ a, ended.1 = .ok a ∧ Q a ended.2

variable {P : Job σ → Prop} {Q : α → Job σ → Prop} {R : β → Job σ → Prop}

theorem Achieves.bind {x : Session σ α} {f : α → Session σ β} (hx : Achieves P x Q)
    (hf : ∀ a, Achieves (Q a) (f a) R) : Achieves P (x >>= f) R := by
  refine ⟨fun job hjob => ?_⟩
  rw [bind_apply, Timed.yields_bind]
  apply (hx.yields job hjob).mono
  rintro ⟨_, next⟩ ⟨a, rfl, ha⟩
  exact (hf a).yields next ha

theorem Achieves.mono {P' : Job σ → Prop} {Q' : α → Job σ → Prop} {x : Session σ α}
    (hx : Achieves P x Q) (hP : ∀ job, P' job → P job) (hQ : ∀ a job, Q a job → Q' a job) :
    Achieves P' x Q' := by
  refine ⟨fun job hjob => (hx.yields job (hP job hjob)).mono ?_⟩
  rintro ended ⟨a, ha, hended⟩
  exact ⟨a, ha, hQ a _ hended⟩

theorem Achieves.of_job {x : Session σ α} (hx : Achieves P x Q) {job : Job σ} (hjob : P job) :
    Achieves (· = job) x Q := by
  refine hx.mono ?_ fun _ _ ha => ha
  rintro _ rfl
  exact hjob

theorem achieves_of_forall {x : Session σ α} (h : ∀ job, P job → Achieves (· = job) x Q) :
    Achieves P x Q :=
  ⟨fun job hjob => (h job hjob).yields job rfl⟩

theorem Achieves.exists_run {x : Session σ α} (hx : Achieves P x Q) {job : Job σ} (hjob : P job)
    (readings : Nat → Instant) :
    ∃ a next, (x job).run readings = some (.ok a, next) ∧ Q a next := by
  obtain ⟨⟨_, next⟩, hrun, a, rfl, ha⟩ := (hx.yields job hjob).exists_run readings
  exact ⟨a, next, hrun, ha⟩

theorem Achieves.thenShutdown {x : Session σ α} (hx : Achieves P x Q) :
    Achieves P (thenShutdown x) fun a job => ∃ before, Q a before ∧
      job = { before with machine := before.machine.shutdown } := by
  refine ⟨fun job hjob => (Timed.yields_bind _ _).mpr ((hx.yields job hjob).mono ?_)⟩
  rintro ⟨_, before⟩ ⟨a, rfl, ha⟩
  exact ⟨a, rfl, before, ha, rfl⟩

theorem achieves_pure {a : α} (h : ∀ job, P job → Q a job) : Achieves P (pure a) Q :=
  ⟨fun job hjob => ⟨a, rfl, h job hjob⟩⟩

/-- What was read from the job may be taken from there in what follows. -/
theorem achieves_get_bind {f : Job σ → Session σ β}
    (h : ∀ job, P job → Achieves (· = job) (f job) R) : Achieves P (get >>= f) R := by
  refine ⟨fun job hjob => ?_⟩
  rw [bind_apply]
  exact (h job hjob).yields job rfl

theorem achieves_memory_bind {f : Memory → Session σ β}
    (h : ∀ job, P job → Achieves (· = job) (f job.machine.memory) R) :
    Achieves P (memory >>= f) R := by
  refine ⟨fun job hjob => ?_⟩
  rw [bind_apply]
  exact (h job hjob).yields job rfl

theorem achieves_call {name : Text} {args : List Value} {Q : List Value → Job σ → Prop}
    (h : ∀ job, P job → ∀ now, ∃ regs m, Action.call now name args job.machine =
      some (.ok regs, m) ∧ Q regs { job with machine := m }) : Achieves P (call name args) Q := by
  refine ⟨fun job hjob now => ?_⟩
  obtain ⟨regs, m, hcall, hQ⟩ := h job hjob now
  show ((Timed.ofOption (Action.call now name args job.machine)).bind _).Yields _
  rw [hcall]
  exact ⟨regs, rfl, hQ⟩

/-- A loop whose body adds to a text adds the text of all its rounds. -/
theorem achieves_forIn {I : Text → Job σ → Prop} {xs : List α} {body : α → Session σ β}
    (g : α → Text) (h : ∀ x ∈ xs, ∀ text, Achieves (I text) (body x) fun _ => I (text ++ g x))
    (text : Text) :
    Achieves (I text)
      (forIn xs PUnit.unit fun x _ => do
        let _ ← body x
        pure (ForInStep.yield PUnit.unit))
      fun _ => I (text ++ xs.flatMap g) := by
  induction xs generalizing text with
  | nil =>
      rw [List.forIn_nil, List.flatMap_nil, List.append_nil]
      exact achieves_pure fun _ hjob => hjob
  | cons x xs ih =>
      have hrest := ih (fun y hy => h y (List.mem_cons_of_mem x hy)) (text ++ g x)
      rw [List.forIn_cons, bind_assoc, List.flatMap_cons, ← List.append_assoc]
      refine (h x List.mem_cons_self text).bind fun _ => ?_
      rw [pure_bind]
      exact hrest

end Session

end CellMachine
