import CellMachine.Launch.Program
import CellMachine.Proofs.Output
import CellMachine.Proofs.Registry
/-!
# The course of a launch

A program may use the registry as it likes before it is entered: register, drain it, go on when it
is refused, or fail.  Whether main is entered depends on what it did there and on nothing else.
Main statement: a launch is its registration, then the registered initializers, then main, then the
end of the streams, and what comes behind the registration happens only if that returned without a
drain.
-/

namespace CellMachine

namespace Timed

variable {α β : Type}

/-- Whatever the clock shows, a result has the property. -/
def Always (P : α → Prop) : Timed α → Prop
  | .done a => P a
  | .look next => ∀ now, (next now).Always P
  | .never => True

theorem Always.mono {P Q : α → Prop} {x : Timed α} (h : x.Always P) (hPQ : ∀ a, P a → Q a) :
    x.Always Q := by
  induction x with
  | done a => exact hPQ a h
  | look next ih => exact fun now => ih now (h now)
  | never => trivial

theorem always_of_forall {P : α → Prop} (x : Timed α) (h : ∀ a, P a) : x.Always P := by
  induction x with
  | done a => exact h a
  | look next ih => exact ih
  | never => trivial

theorem always_bind {P : β → Prop} (x : Timed α) (f : α → Timed β) :
    (x.bind f).Always P ↔ x.Always fun a => (f a).Always P := by
  induction x with
  | done a => exact Iff.rfl
  | look next ih => exact forall_congr' ih
  | never => exact Iff.rfl

end Timed

namespace Registry

variable {m : Type → Type}

/-- A program's use of the registry.  It may act in between, and what it does next may depend on
all that was returned so far. -/
inductive Script (m : Type → Type) : Type 1 where
  | done (outcome : Except Fault Unit)
  | act {β : Type} (x : m β) (next : β → Script m)
  | ask (op : Op m) (next : Except Fault (Option Nat) → Script m)

namespace Script

variable [Monad m]

/-- The script as a use of the registry that there is. -/
def run : Script m → Registration m Unit
  | .done outcome => .mk (pure outcome)
  | .act x next => .mk do
    let b ← liftM x
    (next b).run.run
  | .ask op next => .mk do
    let reply ← op.perform.run
    (next reply).run.run

/-- The script by its history alone: how it ends, and all its operations. -/
def follow (history : List (Op m)) : Script m → m (Except Fault Unit × List (Op m))
  | .done outcome => pure (outcome, history)
  | .act x next => x >>= fun b => (next b).follow history
  | .ask op next => op.effect history >>= fun _ =>
    (next (op.reply history)).follow (history ++ [op])

theorem run_run [LawfulMonad m] (script : Script m) (history : List (Op m)) :
    script.run.run.run (ofHistory history) = script.follow history >>= fun ended =>
      pure (ended.1, ofHistory ended.2) := by
  induction script generalizing history with
  | done outcome =>
      rw [follow, pure_bind]
      rfl
  | act x next ih =>
      have hrun : (act x next).run.run.run (ofHistory history) =
          x >>= fun b => (next b).run.run.run (ofHistory history) := by
        simp [run]
      simp only [hrun, follow, bind_assoc, ih]
  | ask op next ih =>
      have hrun : (ask op next).run.run.run (ofHistory history) =
          op.perform.run.run (ofHistory history) >>= fun first =>
            (next first.1).run.run.run first.2 := by
        simp [run]
      simp only [hrun, Op.run_perform, follow, bind_assoc, pure_bind, ih]

end Script

end Registry

/-! ## What main may do -/

/-- The streams of `m'` are settled where those of `m` are, under the same configuration. -/
structure Machine.Steady (m m' : Machine) : Prop where
  config_eq : m'.config = m.config
  settled : ∀ s, (m.buffer s).Settled → (m'.buffer s).Settled

theorem Machine.Steady.trans {m m₁ m₂ : Machine} (h : m.Steady m₁) (h' : m₁.Steady m₂) :
    m.Steady m₂ :=
  ⟨h'.config_eq.trans h.config_eq, fun s hs => h'.settled s (h.settled s hs)⟩

theorem Machine.steady_of_memory (m : Machine) (memory : Memory) :
    m.Steady { m with memory := memory } :=
  ⟨rfl, fun s hs => by cases s <;> exact hs⟩

theorem Request.Returns.config_eq {r : Request} {m m' : Machine} {regs : List Value}
    (h : Returns m r regs m') : m'.config = m.config := by
  cases h with
  | @free p =>
      unfold Machine.release
      split <;> rfl
  | _ => rfl

theorem Request.steady_of_perform {r : Request} {m m' : Machine}
    {result : Except Fault (List Value)} (h : r.perform m = some (result, m')) : m.Steady m' := by
  refine ⟨?_, fun s => (appends_of_perform h).settled⟩
  have hends := r.ends_perform m
  rw [h] at hends
  cases hends with
  | returns hreturns => exact hreturns.config_eq
  | fails _ => rfl

namespace Session

variable {σ α β : Type}

/-- A computation that works on memory and on the program's own state, calls library functions, and
may fail and recover from faults. -/
inductive Calling : {α : Type} → Session σ α → Prop where
  | own {α : Type} (work : Setup σ α) : Calling (ofSetup work)
  | request (r : Request) : Calling (ofAction r.perform)
  | call (name : Text) (args : List Value) : Calling (call name args)
  | fail {α : Type} (fault : Fault) : Calling (throw fault : Session σ α)
  | bind {α β : Type} {x : Session σ α} {f : α → Session σ β} :
      Calling x → (∀ a, Calling (f a)) → Calling (x >>= f)
  | recover {α : Type} {x : Session σ α} {handle : Fault → Session σ α} :
      Calling x → (∀ fault, Calling (handle fault)) → Calling (tryCatch x handle)

theorem bind_apply (x : Session σ α) (f : α → Session σ β) (job : Job σ) :
    (x >>= f) job = (x job).bind fun ended =>
      match ended.1 with
      | .ok a => f a ended.2
      | .error fault => .done (.error fault, ended.2) := by
  show Timed.bind (x job) _ = _
  congr 1
  funext ended
  obtain ⟨result, next⟩ := ended
  cases result <;> rfl

theorem tryCatch_apply (x : Session σ α) (handle : Fault → Session σ α) (job : Job σ) :
    (tryCatch x handle) job = (x job).bind fun ended =>
      match ended.1 with
      | .ok a => .done (.ok a, ended.2)
      | .error fault => handle fault ended.2 := by
  show Timed.bind (x job) _ = _
  congr 1
  funext ended
  obtain ⟨result, next⟩ := ended
  cases result <;> rfl

theorem always_ofAction {action : Action α} {P : Machine → Machine → Prop}
    (h : ∀ m result m', action m = some (result, m') → P m m') (job : Job σ) :
    (ofAction action job).Always fun ended => P job.machine ended.2.machine := by
  unfold ofAction
  cases haction : action job.machine with
  | none => trivial
  | some outcome => exact h _ _ _ haction

/-- Such a computation never leaves a newline pending. -/
theorem Calling.always_steady {x : Session σ α} (h : Calling x) (job : Job σ) :
    (x job).Always fun ended => job.machine.Steady ended.2.machine := by
  induction h generalizing job with
  | own work =>
      refine (Timed.always_bind _ _).mpr (Timed.always_of_forall _ ?_)
      exact fun ended => job.machine.steady_of_memory ended.2.1
  | request r => exact always_ofAction (fun _ _ _ => Request.steady_of_perform) job
  | call name args =>
      intro now
      apply always_ofAction
      intro m result m' hcall
      rw [Request.call_eq_attempt] at hcall
      cases hread : Request.ofCall now name args with
      | error fault =>
          rw [hread] at hcall
          obtain ⟨-, rfl⟩ := Prod.mk.inj (Option.some.inj hcall)
          exact m.steady_of_memory m.memory
      | ok r =>
          rw [hread] at hcall
          exact Request.steady_of_perform hcall
  | fail fault => exact job.machine.steady_of_memory job.machine.memory
  | bind _ _ ih ihf =>
      rw [bind_apply, Timed.always_bind]
      apply (ih job).mono
      rintro ⟨result, next⟩ hnext
      cases result with
      | error fault => exact hnext
      | ok a => exact (ihf a next).mono fun ended hended => hnext.trans hended
  | recover _ _ ih ihf =>
      rw [tryCatch_apply, Timed.always_bind]
      apply (ih job).mono
      rintro ⟨result, next⟩ hnext
      cases result with
      | error fault => exact (ihf fault next).mono fun ended hended => hnext.trans hended
      | ok a => exact hnext

theorem withRegistry_apply (registry : Registry (Setup σ)) (use : Registration (Setup σ) α)
    (job : Job σ) :
    withRegistry registry use job =
      (use.run.run registry (job.machine.memory, job.own)).bind fun ended =>
        .done (ended.1.1.map fun a => (a, ended.1.2),
          { machine := { job.machine with memory := ended.2.1 }, own := ended.2.2 }) := by
  rw [withRegistry, bind_apply, ofSetup, Timed.bind_assoc]
  congr 1
  funext ended
  obtain ⟨⟨outcome, next⟩, memory, own⟩ := ended
  cases outcome <;> rfl

end Session

/-! ## The end of the streams -/

theorem LineBuffer.Settled.lines_finish {b : LineBuffer} (h : b.Settled) :
    b.finish.lines = b.lines ++ if b.pending = [] then [] else [b.pending] := by
  by_cases hpending : b.pending = []
  · rw [h.finish_eq hpending, if_pos hpending, List.append_nil]
  · have hflush := h.flush_eq
    rw [finish_of_pending_ne_nil (by rwa [hflush]), hflush, if_neg hpending]

theorem Machine.buffer_shutdown (m : Machine) (s : Stream) :
    m.shutdown.buffer s =
      if m.config.flushPartialLine then (m.buffer s).finish else (m.buffer s).flush := by
  unfold Machine.shutdown
  split <;> cases s <;> rfl

theorem LineBuffer.Settled.pending_eq_nil {b : LineBuffer} (h : b.Settled) {text : Text}
    (hstream : b.stream = text ++ ['\n']) : b.pending = [] := by
  have hpending := pending_flush b
  rw [h.flush_eq, hstream] at hpending
  rw [hpending, openLine, List.rtakeWhile_concat]
  rfl

/-- Where nothing is held, the end of the streams changes nothing. -/
theorem Machine.buffer_shutdown_eq {m : Machine} {s : Stream} (h : (m.buffer s).Settled)
    (hpending : (m.buffer s).pending = []) : m.shutdown.buffer s = m.buffer s := by
  rw [buffer_shutdown]
  split
  · exact h.finish_eq hpending
  · exact h.flush_eq

/-! ## Launches -/

namespace Program

variable {σ : Type}

theorem launch_eq (program : Program σ) (machine : Machine) (args : List Text) :
    program.launch machine args =
      (program.register.run.run {} (program.load machine.memory).swap).bind fun ended =>
        let packed := Entry.pack ended.2.1 args machine.config.stackCells
        match ended.1.1 with
        | .error fault =>
          .done (.error fault,
            { machine := { machine with memory := ended.2.1 }, own := ended.2.2 })
        | .ok () => (Registry.runAll.run.run ended.1.2 (packed.2, ended.2.2)).bind fun ran =>
          let job : Job σ := { machine := { machine with memory := ran.2.1 }, own := ran.2.2 }
          match ran.1.1 with
          | .error fault => .done (.error fault, job)
          | .ok _ => Session.thenShutdown (program.main packed.1) job := by
  show program.course args _ = _
  rw [course, Session.bind_apply, Session.withRegistry_apply, Timed.bind_assoc]
  congr 1
  funext ended
  obtain ⟨⟨outcome, registry⟩, memory, own⟩ := ended
  cases outcome with
  | error fault => rfl
  | ok done =>
      -- The command line is put into memory before the registry is asked again.
      let packed := Entry.pack memory args machine.config.stackCells
      show (Session.withRegistry registry Registry.runAll >>= fun _ =>
          Session.thenShutdown (program.main packed.1) : Session σ Int64)
        { machine := { machine with memory := packed.2 }, own := own } = _
      rw [Session.bind_apply, Session.withRegistry_apply, Timed.bind_assoc]
      congr 1
      funext ran
      obtain ⟨⟨outcome, registry⟩, memory, own⟩ := ran
      cases outcome <;> rfl

/-- Packs the command line, runs initializers, enters main and ends the streams behind it. -/
def enter (program : Program σ) (args : List Text) (initializers : List (Setup σ Unit)) :
    Session σ Int64 := fun job =>
  let packed := Entry.pack job.machine.memory args job.machine.config.stackCells
  ((forM initializers id : Setup σ PUnit) (packed.2, job.own)).bind fun ready =>
    (program.main packed.1
      { machine := { job.machine with memory := ready.2.1 }, own := ready.2.2 }).bind fun ended =>
        .done (ended.1, { ended.2 with machine := ended.2.machine.shutdown })

theorem launch_eq_follow {program : Program σ} {script : Registry.Script (Setup σ)}
    (h : program.register = script.run) (machine : Machine) (args : List Text) :
    program.launch machine args =
      (script.follow [] (program.load machine.memory).swap).bind fun ended =>
        let job : Job σ := { machine := { machine with memory := ended.2.1 }, own := ended.2.2 }
        let packed := Entry.pack ended.2.1 args machine.config.stackCells
        match ended.1.1, Registry.drains ended.1.2 with
        | .error fault, _ => .done (.error fault, job)
        | .ok (), true => .done (.error .initializersAlreadyRun,
            { job with machine := { machine with memory := packed.2 } })
        | .ok (), false => program.enter args (Registry.registered ended.1.2) job := by
  have hstart : ({} : Registry (Setup σ)) = Registry.ofHistory [] := rfl
  have hregister : program.register.run.run {} (program.load machine.memory).swap =
      (script.follow [] (program.load machine.memory).swap).bind fun ended =>
        .done ((ended.1.1, Registry.ofHistory ended.1.2), ended.2) := by
    rw [h, hstart, script.run_run]
    rfl
  rw [launch_eq, hregister, Timed.bind_assoc]
  congr 1
  funext ended
  obtain ⟨⟨outcome, ops⟩, memory, own⟩ := ended
  cases outcome with
  | error fault => rfl
  | ok done =>
      let packed := Entry.pack memory args machine.config.stackCells
      have hrun := congrFun (Registry.run_runAll_ofHistory ops) (packed.2, own)
      cases hdrains : Registry.drains ops with
      | true =>
          rw [hdrains, if_pos rfl] at hrun
          simp only [Timed.bind, hrun, packed]
          rfl
      | false =>
          rw [hdrains, if_neg Bool.false_ne_true] at hrun
          show Timed.bind (Registry.runAll.run.run (Registry.ofHistory ops) (packed.2, own)) _ = _
          rw [hrun]
          exact Timed.bind_assoc _ _ _

/-- A launch follows the program's use of the registry.  If that fails, the launch fails with its
fault, drained or not; if it returns but has drained the registry, the launch fails because of the
drain.  Neither touches the streams.  Otherwise main is entered, once, behind all registered
initializers in order and with as many arguments as the command line has.  If main returns, the
launch ends as main ends, with the streams ended: what a stream held is then its last line, or stays
the open line if the configuration says so. -/
theorem launch_protocol {σ : Type} (program : Program σ) (script : Registry.Script (Setup σ))
    (hscript : program.register = script.run) (hmain : ∀ entry, (program.main entry).Calling)
    (machine : Machine) (hsettled : ∀ s, (machine.buffer s).Settled) (args : List Text) :
    program.launch machine args =
      (script.follow [] (program.load machine.memory).swap).bind (fun ended =>
        let job : Job σ := { machine := { machine with memory := ended.2.1 }, own := ended.2.2 }
        let packed := Entry.pack ended.2.1 args machine.config.stackCells
        match ended.1.1, Registry.drains ended.1.2 with
        | .error fault, _ => .done (.error fault, job)
        | .ok (), true => .done (.error .initializersAlreadyRun,
            { job with machine := { machine with memory := packed.2 } })
        | .ok (), false => program.enter args (Registry.registered ended.1.2) job) ∧
    (∀ memory, (Entry.pack memory args machine.config.stackCells).1.argc = args.length) ∧
    (∀ (entry : Entry) (memory : Memory) (own : σ),
      (program.main entry { machine := { machine with memory := memory }, own := own }).Always
        fun ended => ∀ s : Stream,
          let held := ended.2.machine.buffer s
          let final := ended.2.machine.shutdown.buffer s
          (machine.config.flushPartialLine = true → final.pending = [] ∧
            final.lines = held.lines ++ if held.pending = [] then [] else [held.pending]) ∧
          (machine.config.flushPartialLine = false → final.stream = held.stream ∧
            final.pending = LineBuffer.openLine held.stream)) := by
  refine ⟨launch_eq_follow hscript machine args, fun _ => rfl, ?_⟩
  intro entry memory own
  apply ((hmain entry).always_steady _).mono
  rintro ⟨result, job⟩ hsteady s
  have hconfig : job.machine.config = machine.config := hsteady.config_eq
  have hheld : (job.machine.buffer s).Settled := by
    apply hsteady.settled s
    exact (machine.steady_of_memory memory).settled s (hsettled s)
  rw [Machine.buffer_shutdown, hconfig]
  constructor
  · intro hflag
    rw [if_pos hflag]
    exact ⟨LineBuffer.pending_finish _, hheld.lines_finish⟩
  · intro hflag
    rw [if_neg (by simp [hflag])]
    exact ⟨LineBuffer.stream_flush _, LineBuffer.pending_flush _⟩

/-- One program registers two initializers and is entered behind them, and what it leaves on a
stream becomes the last line.  Another drains the registry and returns; a third does the same and
passes on that it is refused. -/
theorem launch_protocol_refused :
    let note (name : Text) : Setup (List Text) Unit := fun (memory, log) =>
      .done ((), (memory, log ++ [name]))
    let main (_ : Entry) : Session (List Text) Int64 := do
      let _ ← Session.ofAction (Request.putchar 120).perform
      Session.ofSetup (do note ['m']; return 7)
    let entered : Registry.Script (Setup (List Text)) :=
      .ask (.register (note ['a'])) fun _ => .ask (.register (note ['b'])) fun _ => .done (.ok ())
    let drained : Registry.Script (Setup (List Text)) :=
      .ask (.register (note ['a'])) fun _ => .ask .runAll fun _ => .done (.ok ())
    let refused : Registry.Script (Setup (List Text)) :=
      .ask (.register (note ['a'])) fun _ => .ask .runAll fun _ =>
        .ask (.register (note ['b'])) fun reply => .done (reply.map fun _ => ())
    let program (script : Registry.Script (Setup (List Text))) : Program (List Text) :=
      { load := fun memory => ([], memory), register := script.run, main := main }
    let machine := Machine.boot { stackCells := 0 }
    (∃ job, (program entered).launch machine [['p'], ['q']] = .done (.ok 7, job) ∧
      job.own = [['a'], ['b'], ['m']] ∧ job.machine.stdout.pending = [] ∧
      job.machine.stdout.lines = [['x']]) ∧
    ∀ script ∈ [drained, refused], ∃ job, (program script).launch machine [['p'], ['q']] =
        .done (.error .initializersAlreadyRun, job) ∧
      job.own = [['a']] ∧ job.machine.stdout.lines = [] := by
  intro note main entered drained refused program machine
  have hmain : ∀ entry, (main entry).Calling := fun _ =>
    .bind (.request (.putchar 120)) fun _ => .own _
  have hsettled : ∀ s, (machine.buffer s).Settled := by
    intro s
    cases s <;> exact LineBuffer.settled_empty
  have hprotocol script := launch_protocol (program script) script rfl hmain machine hsettled
    [['p'], ['q']]
  obtain ⟨hentered, -, hstreams⟩ := hprotocol entered
  let packed := Entry.pack machine.memory [['p'], ['q']] 0
  obtain ⟨hpending, hlines⟩ := (hstreams packed.1 packed.2 [['a'], ['b']] .stdout).1 rfl
  refine ⟨⟨_, hentered.trans rfl, rfl, hpending, hlines⟩, ?_⟩
  intro script hscript
  rcases List.mem_pair.mp hscript with rfl | rfl
  · exact ⟨_, (hprotocol drained).1.trans rfl, rfl, rfl⟩
  · exact ⟨_, (hprotocol refused).1.trans rfl, rfl, rfl⟩

/-- A program that drains the registry and then fails with a fault of its own ends with that fault,
and not because of the drain.  A program whose main fills cells with the least count is entered but
has no result, and its streams are not ended. -/
theorem launch_protocol_excepted :
    let fault : Fault := .unknownProgram ['q']
    let failing : Registry.Script (Setup Unit) := .ask .runAll fun _ => .done (.error fault)
    let returning : Registry.Script (Setup Unit) := .done (.ok ())
    let main (_ : Entry) : Session Unit Int64 := do
      let _ ← Session.ofAction (Request.putchar 120).perform
      let _ ← Session.ofAction (Request.memset { block := 0 } 7 Int64.minValue).perform
      return 0
    let program (script : Registry.Script (Setup Unit)) : Program Unit :=
      { load := fun memory => ((), memory), register := script.run, main := main }
    let machine := Machine.boot { stackCells := 0 }
    ((∃ ops ended, failing.follow [] (machine.memory, ()) = .done ((.error fault, ops), ended) ∧
        Registry.drains ops = true) ∧
      (∃ job, (program failing).launch machine [['p']] = .done (.error fault, job)) ∧
      fault ≠ .initializersAlreadyRun) ∧
    (program returning).launch machine [['p']] = .never := by
  intro fault failing returning main program machine
  exact ⟨⟨⟨_, _, rfl, rfl⟩, ⟨_, rfl⟩, nofun⟩, rfl⟩

end Program

end CellMachine
