import CellMachine.Launch.Registry
import Mathlib.Data.List.Basic
/-!
# Registries over whole runs

A registry is determined by the operations that were performed on it, and so is what each further
operation returns and executes.  The statements hold for initializers in any monad: the two sides
of an equation have the same effects in the same order.  Main statement: the first drain runs what
was registered before it, each initializer once and in order, and nothing else ever runs.
-/

namespace CellMachine.Registry

variable {m : Type → Type} {α β : Type}

/-! ## Histories -/

/-- An operation on a registry. -/
inductive Op (m : Type → Type) where
  | register (initializer : m Unit)
  | runAll

def Op.initializer? : Op m → Option (m Unit)
  | .register initializer => some initializer
  | .runAll => none

def registered (history : List (Op m)) : List (m Unit) := history.filterMap Op.initializer?

/-- Whether there is a drain among operations. -/
def drains (history : List (Op m)) : Bool := history.any (·.initializer?.isNone)

theorem drains_concat (history : List (Op m)) (op : Op m) :
    drains (history ++ [op]) = (drains history || op.initializer?.isNone) := by
  simp [drains]

/-- The registry behind operations. -/
def ofHistory (history : List (Op m)) : Registry m :=
  if drains history then { pending := [], drained := true } else { pending := registered history }

/-- What an operation returns when others came before it. -/
def Op.reply (history : List (Op m)) (op : Op m) : Except Fault (Option Nat) :=
  if drains history then .error .initializersAlreadyRun
  else match op with
    | .register _ => .ok none
    | .runAll => .ok (some (registered history).length)

/-- In a list of values of two kinds, the one of the second kind that comes first. -/
theorem exists_front {γ : Type*} {first : α → γ} {second : γ}
    (hkinds : ∀ c, (∃ a, c = first a) ∨ c = second) (cs : List γ) :
    (∃ front : List α, cs = front.map first) ∨
      ∃ (front : List α) (later : List γ), cs = front.map first ++ second :: later := by
  induction cs with
  | nil => exact .inl ⟨[], rfl⟩
  | cons c rest ih =>
      rcases hkinds c with ⟨a, rfl⟩ | rfl
      · rcases ih with ⟨front, rfl⟩ | ⟨front, later, rfl⟩
        · exact .inl ⟨a :: front, rfl⟩
        · exact .inr ⟨a :: front, later, rfl⟩
      · exact .inr ⟨[], rest, rfl⟩

/-- All operations come before the first drain, or some come behind it. -/
theorem exists_registrations (ops : List (Op m)) :
    (∃ before : List (m Unit), ops = before.map .register) ∨
      ∃ (before : List (m Unit)) (later : List (Op m)),
        ops = before.map .register ++ .runAll :: later := by
  apply exists_front
  intro op
  cases op with
  | register initializer => exact .inl ⟨initializer, rfl⟩
  | runAll => exact .inr rfl

theorem drains_map_register (initializers : List (m Unit)) :
    drains (initializers.map Op.register) = false := by
  simp [drains, Op.initializer?]

theorem registered_map_register (initializers : List (m Unit)) :
    registered (initializers.map Op.register) = initializers := by
  simp [registered, Op.initializer?, Function.comp_def]

/-! ## Uses of a registry -/

variable [Monad m]

/-- What an operation executes when others came before it. -/
def Op.effect (history : List (Op m)) : Op m → m Unit
  | .register _ => pure ()
  | .runAll => if drains history then pure () else forM (registered history) id

theorem Op.effect_of_drains {history : List (Op m)} (h : drains history = true) (op : Op m) :
    op.effect history = pure () := by
  cases op with
  | register initializer => rfl
  | runAll => simp only [Op.effect, h, if_true]

theorem run_pure (a : α) (registry : Registry m) :
    (pure a : Registration m α).run.run registry = pure (.ok a, registry) := rfl

theorem run_throw (fault : Fault) (registry : Registry m) :
    (throw fault : Registration m α).run.run registry = pure (.error fault, registry) := rfl

theorem run_bind (x : Registration m α) (f : α → Registration m β) (registry : Registry m) :
    (x >>= f).run.run registry = x.run.run registry >>= fun outcome =>
      match outcome.1 with
      | .ok a => (f a).run.run outcome.2
      | .error fault => pure (.error fault, outcome.2) := by
  rw [ExceptT.run_bind, StateT.run_bind]
  congr 1
  funext outcome
  cases outcome.1 <;> rfl

variable [LawfulMonad m]

theorem run_get (registry : Registry m) :
    (get : Registration m (Registry m)).run.run registry = pure (.ok registry, registry) := by
  show (ExceptT.lift (get : StateT (Registry m) m (Registry m))).run.run registry = _
  rw [ExceptT.run_lift]
  simp

theorem run_set (next registry : Registry m) :
    (set next : Registration m Unit).run.run registry = pure (.ok (), next) := by
  show (ExceptT.lift (set next : StateT (Registry m) m Unit)).run.run registry = _
  rw [ExceptT.run_lift]
  simp

theorem run_lift (x : m α) (registry : Registry m) :
    (liftM x : Registration m α).run.run registry = x >>= fun a => pure (.ok a, registry) := by
  show (ExceptT.lift (StateT.lift x : StateT (Registry m) m α)).run.run registry = _
  rw [ExceptT.run_lift]
  simp

theorem run_register (initializer : m Unit) (registry : Registry m) :
    (register initializer).run.run registry =
      if registry.drained then pure (.error .initializersAlreadyRun, registry)
      else pure (.ok (), { registry with pending := registry.pending ++ [initializer] }) := by
  rw [register, run_bind, run_get, pure_bind]
  show (if registry.drained then (throw .initializersAlreadyRun : Registration m Unit)
    else set _).run.run registry = _
  by_cases h : registry.drained
  · rw [if_pos h, if_pos h, run_throw]
  · rw [if_neg h, if_neg h, run_set]

/-- A loop over initializers runs them one after another and leaves the registry alone. -/
theorem run_forIn (initializers : List (m Unit)) (registry : Registry m) :
    (forIn initializers PUnit.unit fun initializer _ => do
        liftM initializer
        pure (ForInStep.yield PUnit.unit) : Registration m PUnit).run.run registry =
      forM initializers id >>= fun _ => pure (.ok (), registry) := by
  induction initializers with
  | nil =>
      rw [List.forIn_nil, List.forM_nil, pure_bind]
      rfl
  | cons first rest ih =>
      rw [List.forIn_cons, run_bind, run_bind, run_lift, List.forM_cons]
      simp only [bind_assoc, pure_bind, run_pure, ih, id]

theorem run_runAll (registry : Registry m) :
    (runAll : Registration m Nat).run.run registry =
      if registry.drained then pure (.error .initializersAlreadyRun, registry)
      else forM registry.pending id >>= fun _ =>
        pure (.ok registry.pending.length, { pending := [], drained := true }) := by
  rw [runAll, run_bind, run_get, pure_bind]
  by_cases h : registry.drained
  · rw [if_pos h]
    simp only [h, if_true]
    rfl
  · rw [if_neg h]
    simp only [h, Bool.false_eq_true, if_false, run_bind, run_set, run_forIn, bind_assoc,
      pure_bind]
    rfl

theorem run_runAll_ofHistory (history : List (Op m)) :
    (runAll : Registration m Nat).run.run (ofHistory history) =
      if drains history then pure (.error .initializersAlreadyRun, ofHistory history)
      else forM (registered history) id >>= fun _ =>
        pure (.ok (registered history).length, { pending := [], drained := true }) := by
  rw [run_runAll]
  cases h : drains history with
  | true => simp only [ofHistory, h, if_true]
  | false => simp only [ofHistory, h, Bool.false_eq_true, if_false]

/-! ## One operation -/

namespace Op

/-- Performs an operation; a drain tells how many initializers it ran. -/
def perform : Op m → Registration m (Option Nat)
  | .register initializer => do
    Registry.register initializer
    return none
  | .runAll => return some (← Registry.runAll)

/-- A registry that behaves by its history keeps doing so. -/
theorem run_perform (history : List (Op m)) (op : Op m) :
    op.perform.run.run (ofHistory history) = op.effect history >>= fun _ =>
      pure (op.reply history, ofHistory (history ++ [op])) := by
  cases hdrains : drains history with
  | true =>
      have hnext : drains (history ++ [op]) = true := by
        rw [drains_concat, hdrains, Bool.true_or]
      simp only [ofHistory, hdrains, hnext, if_true, reply]
      cases op with
      | register initializer =>
          simp only [perform, run_bind, run_register, if_true, pure_bind, effect]
      | runAll =>
          simp only [perform, run_bind, run_runAll, if_true, pure_bind, effect, hdrains]
  | false =>
      have hnext : drains (history ++ [op]) = op.initializer?.isNone := by
        rw [drains_concat, hdrains, Bool.false_or]
      simp only [ofHistory, hdrains, hnext, Bool.false_eq_true, if_false, reply]
      cases op with
      | register initializer =>
          simp only [perform, run_bind, run_register, Bool.false_eq_true, if_false, pure_bind,
            run_pure, effect, registered, List.filterMap_append]
          rfl
      | runAll =>
          simp only [perform, run_bind, run_runAll, Bool.false_eq_true, if_false, bind_assoc,
            pure_bind, run_pure, effect, hdrains]
          rfl

end Op

/-! ## Runs -/

/-- Performs operations one after another, also behind one that fails, and collects what they
return. -/
def performAll (ops : List (Op m)) : StateT (Registry m) m (List (Except Fault (Option Nat))) :=
  ops.mapM fun op => op.perform.run

theorem run_performAll_cons (op : Op m) (ops : List (Op m)) (registry : Registry m) :
    (performAll (op :: ops)).run registry = op.perform.run.run registry >>= fun first =>
      (performAll ops).run first.2 >>= fun rest => pure (first.1 :: rest.1, rest.2) := by
  simp [performAll]

theorem run_performAll_append (front ops : List (Op m)) (registry : Registry m) :
    (performAll (front ++ ops)).run registry = (performAll front).run registry >>= fun first =>
      (performAll ops).run first.2 >>= fun rest => pure (first.1 ++ rest.1, rest.2) := by
  simp [performAll]

/-- Before the first drain everything is accepted and nothing runs. -/
theorem run_performAll_register {history : List (Op m)} (h : drains history = false)
    (initializers : List (m Unit)) :
    (performAll (initializers.map .register)).run (ofHistory history) =
      pure (initializers.map fun _ => .ok none,
        ofHistory (history ++ initializers.map .register)) := by
  induction initializers generalizing history with
  | nil => simp [performAll]
  | cons first rest ih =>
      have hnext : drains (history ++ [.register first]) = false := by
        rw [drains_concat, h]
        rfl
      rw [List.map_cons, run_performAll_cons, Op.run_perform]
      simp [Op.effect, Op.reply, h, ih hnext]

/-- Behind a drain everything is refused and nothing runs. -/
theorem run_performAll_of_drains {history : List (Op m)} (h : drains history = true)
    (ops : List (Op m)) :
    (performAll ops).run (ofHistory history) =
      pure (ops.map fun _ => .error .initializersAlreadyRun, ofHistory history) := by
  induction ops with
  | nil => simp [performAll]
  | cons op rest ih =>
      have hnext : ofHistory (history ++ [op]) = ofHistory history := by
        simp only [ofHistory, drains_concat, h, Bool.true_or, if_true]
      rw [run_performAll_cons, Op.run_perform, Op.effect_of_drains h, hnext]
      simp [Op.reply, h, ih]

theorem run_performAll_runAll (before : List (m Unit)) (later : List (Op m)) :
    (performAll (before.map .register ++ .runAll :: later)).run {} =
      forM before id >>= fun _ =>
        pure (before.map (fun _ => .ok none) ++ .ok (some before.length) ::
            later.map fun _ => .error .initializersAlreadyRun,
          { pending := [], drained := true }) := by
  have hopen := drains_map_register before
  have hstart : ({} : Registry m) = ofHistory [] := rfl
  have hclosed : drains (before.map .register ++ [(Op.runAll : Op m)]) = true := by
    rw [drains_concat, hopen]
    rfl
  rw [run_performAll_append, hstart, run_performAll_register rfl before, pure_bind,
    run_performAll_cons, List.nil_append, Op.run_perform]
  simp only [Op.effect, Op.reply, hopen, Bool.false_eq_true, if_false, registered_map_register,
    bind_assoc, pure_bind, run_performAll_of_drains hclosed]
  simp only [ofHistory, hclosed, if_true]

/-! ## Logs -/

/-- An initializer that puts its name at the end of a log. -/
def announce (name : Text) : StateM (List Text) Unit := modify (· ++ [name])

/-- Registers an initializer by its name, or drains. -/
def logged : Option Text → Op (StateM (List Text))
  | some name => .register (announce name)
  | none => .runAll

/-- What the initializers have logged behind a run. -/
def log (calls : List (Option Text)) : List Text :=
  (((performAll (calls.map logged)).run {}).run []).run.2

theorem forM_announce (names : List Text) :
    (forM (names.map announce) id : StateM (List Text) PUnit) = modify (· ++ names) := by
  induction names with
  | nil =>
      ext log
      simp
  | cons name rest ih =>
      rw [List.map_cons, List.forM_cons, ih]
      ext log
      simp [announce]

theorem log_map_some (names : List Text) : log (names.map some) = [] := by
  have hops : (names.map some).map logged = (names.map announce).map .register := by
    simp [logged, Function.comp_def]
  have hstart : ({} : Registry (StateM (List Text))) = ofHistory [] := rfl
  rw [log, hops, hstart, run_performAll_register rfl]
  rfl

theorem log_map_some_append (names : List Text) (later : List (Option Text)) :
    log (names.map some ++ none :: later) = names := by
  have hops : (names.map some ++ none :: later).map logged =
      (names.map announce).map .register ++ .runAll :: later.map logged := by
    simp [logged, Function.comp_def]
  rw [log, hops, run_performAll_runAll, forM_announce]
  simp

theorem log_eq (calls : List (Option Text)) :
    log calls = if none ∈ calls then (calls.takeWhile Option.isSome).filterMap id else [] := by
  have hkinds (call : Option Text) : (∃ name, call = some name) ∨ call = none :=
    (Option.eq_none_or_eq_some call).symm
  rcases exists_front hkinds calls with ⟨names, rfl⟩ | ⟨names, later, rfl⟩
  · rw [log_map_some, if_neg (by simp)]
  · have hnames : ∀ call ∈ names.map some, call.isSome = true := by simp
    rw [log_map_some_append, if_pos (by simp), List.takeWhile_append_of_pos hnames]
    simp

/-- Up to the first drain every registration is accepted and nothing runs.  The first drain runs
what is registered, once and in order, and returns how much that is.  All that comes behind it is
refused, runs nothing and leaves the registry empty and closed.  So initializers that log their
names leave no log, or exactly the names that came before the first drain. -/
theorem run_once_in_order {m : Type → Type} [Monad m] [LawfulMonad m] :
    (∀ before : List (m Unit),
      (performAll (before.map .register)).run {} =
        pure (before.map fun _ => .ok none, { pending := before, drained := false })) ∧
    (∀ (before : List (m Unit)) (later : List (Op m)),
      (performAll (before.map .register ++ .runAll :: later)).run {} =
        (forM before id : m PUnit) >>= fun _ =>
          pure (before.map (fun _ => .ok none) ++ .ok (some before.length) ::
              later.map fun _ => .error .initializersAlreadyRun,
            { pending := [], drained := true })) ∧
    (∀ ops : List (Op m), (∃ before : List (m Unit), ops = before.map .register) ∨
      ∃ (before : List (m Unit)) (later : List (Op m)),
        ops = before.map .register ++ .runAll :: later) ∧
    (∀ calls : List (Option Text),
      log calls = if none ∈ calls then (calls.takeWhile Option.isSome).filterMap id else []) := by
  refine ⟨?_, run_performAll_runAll, exists_registrations, log_eq⟩
  intro before
  have hstart : ({} : Registry m) = ofHistory [] := rfl
  rw [hstart, run_performAll_register rfl before, List.nil_append]
  simp only [ofHistory, drains_map_register, registered_map_register, Bool.false_eq_true, if_false]

/-- Two initializers run at the first of two drains; one that comes behind it is refused. -/
theorem run_once_in_order_logged :
    let a : Text := ['a']
    let b : Text := ['b']
    let c : Text := ['c']
    let replies := (performAll ([a, b].map (fun name => .register (announce name)) ++
      [.runAll, .register (announce c), .runAll])).run {}
    (replies.run []).run = (([.ok none, .ok none, .ok (some 2), .error .initializersAlreadyRun,
      .error .initializersAlreadyRun], { pending := [], drained := true }), [a, b]) ∧
      log [some a, some b] = [] ∧ log [some a, some b, none, some c, none] = [a, b] := by
  intro a b c replies
  obtain ⟨-, hdrain, -, hlog⟩ := run_once_in_order (m := StateM (List Text))
  refine ⟨?_, hlog [some a, some b], hlog [some a, some b, none, some c, none]⟩
  have hreplies := hdrain ([a, b].map announce) [.register (announce c), .runAll]
  exact congrArg (fun run => (StateT.run run []).run) hreplies

end CellMachine.Registry
