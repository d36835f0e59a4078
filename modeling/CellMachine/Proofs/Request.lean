import CellMachine.Machine.Call
/-!
# Requests

A call by name is refused for its name, for its number of values or for a null pointer, or it is a
request: a library function with the arguments that it takes.  `Returns` gives what a request does
to the machine as rules, one for each way in which it can return.  Main statement: a request fails
only in its template, which is expanded before anything is written, so a failed call leaves the
machine as it was.
-/

namespace CellMachine

namespace Action

/-- A template is expanded without a change to the machine. -/
theorem format_apply (template : Pointer) (values : List Value) (m : Machine) :
    format template values m =
      (Template.checkedFormat m.memory (m.memory.textAt template) values).map fun rendered =>
        (rendered.mapError .format, m) := rfl

/-- The expansion of a template comes first and decides how printing ends. -/
theorem print_apply (template : Pointer) (values : List Value) (m : Machine) :
    print template values m =
      (Template.checkedFormat m.memory (m.memory.textAt template) values).map fun
      | .ok text => (.ok (Int64.ofNat text.length), { m with stdout := m.stdout.write text })
      | .error e => (.error (.format e), m) := by
  simp only [print, bind_apply, format_apply]
  rcases Template.checkedFormat m.memory (m.memory.textAt template) values with _ | _ | _ <;> rfl

theorem printf_apply (template : Pointer) (values : List Value) (m : Machine) :
    printf template values m =
      (Template.checkedFormat m.memory (m.memory.textAt template)
        (Vararg.resolveAll m.memory values)).map fun
      | .ok text => (.ok (Int64.ofNat text.length), { m with stdout := m.stdout.write text })
      | .error e => (.error (.format e), m) :=
  print_apply template (Vararg.resolveAll m.memory values) m

theorem printfTagged_apply (template : Pointer) (args : List Vararg) (m : Machine) :
    printfTagged template args m =
      (Template.checkedFormat m.memory (m.memory.textAt template)
        (args.map (Vararg.resolve m.memory))).map fun
      | .ok text => (.ok (Int64.ofNat text.length), { m with stdout := m.stdout.write text })
      | .error e => (.error (.format e), m) :=
  print_apply template (args.map (Vararg.resolve m.memory)) m

theorem sprintf_apply (target template : Pointer) (values : List Value) (m : Machine) :
    sprintf target template values m =
      (Template.checkedFormat m.memory (m.memory.textAt template)
        (Vararg.resolveAll m.memory values)).map fun
      | .ok text =>
        (.ok (Int64.ofNat text.length), { m with memory := m.memory.writeText target text })
      | .error e => (.error (.format e), m) := by
  simp only [sprintf, bind_apply, get_apply, format_apply, Memory.storeText_eq]
  rcases Template.checkedFormat m.memory (m.memory.textAt template)
    (Vararg.resolveAll m.memory values) with _ | _ | _ <;> rfl

end Action

/-- Where the pointers stand that a function follows. -/
def Symbol.followed : Symbol → List Nat
  | .printf | .atoi | .atol | .memset | .gettimeofday => [0]
  | .sprintf | .strcpy | .memcpy => [0, 2]
  | _ => []

/-- A library function with its arguments.  What is computed from numbers alone needs no machine and
is given by its result. -/
inductive Request where
  | printf (template : Pointer) (values : List Value)
  | printfTagged (template : Pointer) (args : List Vararg)
  | sprintf (target template : Pointer) (values : List Value)
  | putc (code : Int64) (file : Option Pointer)
  | putchar (code : Int64)
  | malloc
  | calloc (count size : Int64)
  | realloc (p : Option Pointer)
  | free (p : Option Pointer)
  | atoi (text : Pointer)
  | atol (text : Pointer)
  | strcpy (target source : Pointer)
  | memset (target : Pointer) (n count : Int64)
  | memcpy (target source : Pointer) (count : Int64)
  | gettimeofday (now : Instant) (target : Pointer)
  | compute (result : Double)

namespace Request

open CellMachine.Action (pointer? integer number)

/-- Performs a request; the result is in registers. -/
def perform : Request → Action (List Value)
  | .printf template values => return [.int (← Action.printf template values)]
  | .printfTagged template args => return [.int (← Action.printfTagged template args)]
  | .sprintf target template values => return [.int (← Action.sprintf target template values)]
  | .putc code file => return [.int (← Action.putc code file)]
  | .putchar code => return [.int (← Action.putchar code)]
  | .malloc => return (← Action.malloc).toPair
  | .calloc count size => return (← Action.calloc count size).toPair
  | .realloc p => return Pointer.pairOf (← Action.realloc p)
  | .free p => do
    Action.free p
    return []
  | .atoi text => return [.int (← Action.atoi text)]
  | .atol text => return [.int (← Action.atol text)]
  | .strcpy target source => return (← Action.strcpy target source).toPair
  | .memset target n count => return (← Action.memset target n count).toPair
  | .memcpy target source count => return (← Action.memcpy target source count).toPair
  | .gettimeofday now target => return [.int (← Action.gettimeofday now target)]
  | .compute result => return [.float result]

/-! ## Calls by name -/

/-- The pointer at an index of a flat list; null is a fault. -/
def follow (s : Symbol) (args : List Value) (i : Nat) : Except Fault Pointer :=
  match pointer? args i with
  | some p => .ok p
  | none => .error (.nullPointer s)

/-- The request in a flat list that is long enough for its function. -/
def ofFlat (now : Instant) (s : Symbol) (args : List Value) : Except Fault Request := do
  match s with
  | .printf => return .printf (← follow s args 0) (args.drop 2)
  | .sprintf =>
    let target ← follow s args 0
    return .sprintf target (← follow s args 2) (args.drop 4)
  | .putc => return .putc (integer args 0) (pointer? args 1)
  | .putchar => return .putchar (integer args 0)
  | .malloc => return .malloc
  | .calloc => return .calloc (integer args 0) (integer args 1)
  | .realloc => return .realloc (pointer? args 0)
  | .free => return .free (pointer? args 0)
  | .atoi => return .atoi (← follow s args 0)
  | .atol => return .atol (← follow s args 0)
  | .strcpy =>
    let target ← follow s args 0
    return .strcpy target (← follow s args 2)
  | .memset => return .memset (← follow s args 0) (integer args 2) (integer args 3)
  | .memcpy =>
    let target ← follow s args 0
    return .memcpy target (← follow s args 2) (integer args 4)
  | .gettimeofday => return .gettimeofday now (← follow s args 0)
  | .sin => return .compute (Action.onFloat Float.sin (number args 0))
  | .cos => return .compute (Action.onFloat Float.cos (number args 0))
  | .tan => return .compute (Action.onFloat Float.tan (number args 0))
  | .atan => return .compute (Action.onFloat Float.atan (number args 0))
  | .log => return .compute (Action.onFloat Float.log (number args 0))
  | .exp => return .compute (Action.onFloat Float.exp (number args 0))
  | .sqrt => return .compute (Action.onFloat Float.sqrt (number args 0))
  | .pow => return .compute (Action.power (number args 0) (number args 1))

/-- The request that a call by name makes. -/
def ofCall (now : Instant) (name : Text) (args : List Value) : Except Fault Request :=
  match Symbol.ofName? name with
  | none => .error (.unknownSymbol name)
  | some s =>
    if args.length < s.arity then .error (.argumentCount s args.length)
    else ofFlat now s args

/-- Performs what was read, or raises the fault that it was refused with. -/
def attempt : Except Fault Request → Action (List Value)
  | .ok r => r.perform
  | .error fault => throw fault

theorem perform_eq_attempt (now : Instant) (s : Symbol) (args : List Value) :
    Action.perform now s args = attempt (ofFlat now s args) := by
  cases s with
  | printf | atoi | atol | memset | gettimeofday =>
      simp only [Action.perform, ofFlat, Action.pointer, follow]
      cases pointer? args 0 with
      | none => rfl
      | some p =>
          simp only [pure_bind]
          rfl
  | sprintf | strcpy | memcpy =>
      simp only [Action.perform, ofFlat, Action.pointer, follow]
      cases pointer? args 0 with
      | none => rfl
      | some target => cases pointer? args 2 <;> rfl
  | _ => rfl

theorem call_eq_attempt (now : Instant) (name : Text) (args : List Value) :
    Action.call now name args = attempt (ofCall now name args) := by
  unfold Action.call ofCall
  cases Symbol.ofName? name with
  | none => rfl
  | some s =>
      simp only
      split
      · rfl
      · exact perform_eq_attempt now s args

/-! ## What a request does -/

/-- The text that a request writes, if it formats one; none if that overflows. -/
def rendered (m : Memory) : Request → Option (Except FormatError Text)
  | .printf template values | .sprintf _ template values =>
    Template.checkedFormat m (m.textAt template) (Vararg.resolveAll m values)
  | .printfTagged template args =>
    Template.checkedFormat m (m.textAt template) (args.map (Vararg.resolve m))
  | _ => some (.ok [])

/-- The registers that a request returns with, and the machine behind it. -/
inductive Returns (m : Machine) : Request → List Value → Machine → Prop where
  | printf {template values text} :
      (printf template values).rendered m.memory = some (.ok text) →
      Returns m (.printf template values) [.int (Int64.ofNat text.length)]
        { m with stdout := m.stdout.write text }
  | printfTagged {template args text} :
      (printfTagged template args).rendered m.memory = some (.ok text) →
      Returns m (.printfTagged template args) [.int (Int64.ofNat text.length)]
        { m with stdout := m.stdout.write text }
  | sprintf {target template values text} :
      (sprintf target template values).rendered m.memory = some (.ok text) →
      Returns m (.sprintf target template values) [.int (Int64.ofNat text.length)]
        { m with memory := m.memory.writeText target text }
  | putcStdout {code file} : Stream.ofPointer? file = some .stdout →
      Returns m (.putc code (some file)) [.int code]
        { m with stdout := m.stdout.putChar (Text.ofCode code) }
  | putcStderr {code file} : Stream.ofPointer? file = some .stderr →
      Returns m (.putc code (some file)) [.int code]
        { m with stderr := m.stderr.putChar (Text.ofCode code) }
  | putcElsewhere {code file} : file.bind Stream.ofPointer? ≠ some .stdout →
      file.bind Stream.ofPointer? ≠ some .stderr →
      Returns m (.putc code file) [.int Action.endOfFile] m
  | putchar {code} :
      Returns m (.putchar code) [.int code]
        { m with stdout := m.stdout.putChar (Text.ofCode code) }
  | malloc : Returns m .malloc m.allocate.1.toPair m.allocate.2
  | calloc {count size} :
      Returns m (.calloc count size) (m.allocateZeroed count size).1.toPair
        (m.allocateZeroed count size).2
  | realloc {p} : Returns m (.realloc p) (Pointer.pairOf p) m
  | free {p} : Returns m (.free p) [] (m.release p)
  | atoi {text} :
      Returns m (.atoi text)
        [.int (Numeral.leadingInt (m.memory.textAt text)).toInt32.toInt64] m
  | atol {text} : Returns m (.atol text) [.int (Numeral.leadingInt (m.memory.textAt text))] m
  | strcpy {target source memory} : m.memory.copyText target source = some memory →
      Returns m (.strcpy target source) target.toPair { m with memory := memory }
  | memset {target n count memory} : m.memory.fill target n count = some memory →
      Returns m (.memset target n count) target.toPair { m with memory := memory }
  | memcpy {target source count} :
      Returns m (.memcpy target source count) target.toPair
        { m with memory := m.memory.moveCells target source count }
  | gettimeofday {now : Instant} {target} :
      Returns m (.gettimeofday now target) [.int 0]
        { m with
          memory := m.memory.writeAll target
            [.int (Int64.ofNat now.seconds), .int (Int64.ofNat now.microseconds)] }
  | compute {result} : Returns m (.compute result) [.float result] m

/-- How a request ends: it returns, it fails in its template and changes nothing, or it has no
result. -/
inductive Ends (m : Machine) (r : Request) : Option (Except Fault (List Value) × Machine) → Prop
  | returns {regs m'} : Returns m r regs m' → Ends m r (some (.ok regs, m'))
  | fails {e} : r.rendered m.memory = some (.error e) → Ends m r (some (.error (.format e), m))
  | stops : Ends m r none

theorem ends_perform (r : Request) (m : Machine) : Ends m r (r.perform m) := by
  cases r with
  | printf template values =>
      simp only [perform, Action.bind_apply, Action.printf_apply]
      rcases hformat : Template.checkedFormat m.memory (m.memory.textAt template)
          (Vararg.resolveAll m.memory values) with _ | e | text
      · exact .stops
      · exact .fails hformat
      · exact .returns (.printf hformat)
  | printfTagged template args =>
      simp only [perform, Action.bind_apply, Action.printfTagged_apply]
      rcases hformat : Template.checkedFormat m.memory (m.memory.textAt template)
          (args.map (Vararg.resolve m.memory)) with _ | e | text
      · exact .stops
      · exact .fails hformat
      · exact .returns (.printfTagged hformat)
  | sprintf target template values =>
      simp only [perform, Action.bind_apply, Action.sprintf_apply]
      rcases hformat : Template.checkedFormat m.memory (m.memory.textAt template)
          (Vararg.resolveAll m.memory values) with _ | e | text
      · exact .stops
      · exact .fails hformat
      · exact .returns (.sprintf hformat)
  | putc code file =>
      simp only [perform, Action.putc, Action.bind_apply]
      cases hstream : file.bind Stream.ofPointer? with
      | none => exact .returns (.putcElsewhere (by simp [hstream]) (by simp [hstream]))
      | some s =>
          cases s with
          | stdin => exact .returns (.putcElsewhere (by simp [hstream]) (by simp [hstream]))
          | stdout =>
              obtain ⟨p, rfl, hp⟩ := Option.bind_eq_some_iff.mp hstream
              exact .returns (.putcStdout hp)
          | stderr =>
              obtain ⟨p, rfl, hp⟩ := Option.bind_eq_some_iff.mp hstream
              exact .returns (.putcStderr hp)
  | putchar code => exact .returns .putchar
  | malloc => exact .returns .malloc
  | calloc count size => exact .returns .calloc
  | realloc p => exact .returns .realloc
  | free p => exact .returns .free
  | atoi text => exact .returns .atoi
  | atol text => exact .returns .atol
  | strcpy target source =>
      simp only [perform, Action.strcpy, Action.bind_apply, Action.updateMemory]
      cases hcopy : m.memory.copyText target source with
      | none => exact .stops
      | some memory => exact .returns (.strcpy hcopy)
  | memset target n count =>
      simp only [perform, Action.memset, Action.bind_apply, Action.updateMemory]
      cases hfill : m.memory.fill target n count with
      | none => exact .stops
      | some memory => exact .returns (.memset hfill)
  | memcpy target source count => exact .returns .memcpy
  | gettimeofday now target => exact .returns .gettimeofday
  | compute result => exact .returns .compute

theorem returns_of_perform {r : Request} {m m' : Machine} {regs : List Value}
    (h : r.perform m = some (.ok regs, m')) : Returns m r regs m' := by
  have hends := r.ends_perform m
  rw [h] at hends
  cases hends with
  | returns hreturns => exact hreturns

theorem unchanged_of_perform {r : Request} {m m' : Machine} {fault : Fault}
    (h : r.perform m = some (.error fault, m')) : m' = m ∧ ∃ e, fault = .format e := by
  have hends := r.ends_perform m
  rw [h] at hends
  cases hends with
  | @fails e _ => exact ⟨rfl, e, rfl⟩

/-! ## Failed calls -/

theorem follow_bind_eq_error_iff {β : Type} {s : Symbol} {args : List Value} {i : Nat}
    {f : Pointer → Except Fault β} {fault : Fault} :
    follow s args i >>= f = .error fault ↔
      (pointer? args i = none ∧ fault = .nullPointer s) ∨
        ∃ p, pointer? args i = some p ∧ f p = .error fault := by
  unfold follow
  cases hp : pointer? args i with
  | none => simp [bind, Except.bind, eq_comm]
  | some p => simp [bind, Except.bind]

theorem ofFlat_eq_error_iff {now : Instant} {s : Symbol} {args : List Value} {fault : Fault} :
    ofFlat now s args = .error fault ↔
      fault = .nullPointer s ∧ ∃ i ∈ s.followed, pointer? args i = none := by
  cases s with
  | printf | atoi | atol | memset | gettimeofday =>
      refine follow_bind_eq_error_iff.trans ?_
      simp [Symbol.followed, pure, Except.pure, and_comm]
  | sprintf | strcpy | memcpy =>
      refine follow_bind_eq_error_iff.trans ?_
      simp only [follow_bind_eq_error_iff]
      cases hfirst : pointer? args 0 <;>
        simp [Symbol.followed, hfirst, pure, Except.pure, and_comm]
  | _ => simp [ofFlat, Symbol.followed, pure, Except.pure]

/-- The faults that a call by name is refused with. -/
theorem fault_of_ofCall {now : Instant} {name : Text} {args : List Value} {fault : Fault}
    (h : ofCall now name args = .error fault) :
    fault = .unknownSymbol name ∨ ∃ s, Symbol.ofName? name = some s ∧
      (fault = .argumentCount s args.length ∨ fault = .nullPointer s) := by
  unfold ofCall at h
  cases hname : Symbol.ofName? name with
  | none =>
      rw [hname] at h
      exact .inl (Except.error.inj h).symm
  | some s =>
      simp only [hname] at h
      refine .inr ⟨s, rfl, ?_⟩
      by_cases hcount : args.length < s.arity
      · rw [if_pos hcount] at h
        exact .inl (Except.error.inj h).symm
      · rw [if_neg hcount] at h
        exact .inr (ofFlat_eq_error_iff.mp h).1

/-- A call that ends in a fault has changed nothing in the machine: no cell, block, counter, line or
pending text.  Its fault is one of four kinds. -/
theorem failed_call_unchanged :
    (∀ (now : Instant) (name : Text) (args : List Value) (m m' : Machine) (fault : Fault),
      Action.call now name args m = some (.error fault, m') →
        m' = m ∧ (fault = .unknownSymbol name ∨
          (∃ s, Symbol.ofName? name = some s ∧
            (fault = .argumentCount s args.length ∨ fault = .nullPointer s)) ∨
          ∃ e, fault = .format e)) ∧
    (∀ (template : Pointer) (args : List Vararg) (m m' : Machine) (fault : Fault),
      Action.printfTagged template args m = some (.error fault, m') →
        m' = m ∧ ∃ e, fault = .format e) := by
  constructor
  · intro now name args m m' fault h
    rw [call_eq_attempt] at h
    cases hread : ofCall now name args with
    | error refused =>
        rw [hread] at h
        obtain ⟨hfault, rfl⟩ := Prod.mk.inj (Option.some.inj h)
        obtain rfl := Except.error.inj hfault
        refine ⟨rfl, ?_⟩
        rcases fault_of_ofCall hread with hname | hargs
        · exact .inl hname
        · exact .inr (.inl hargs)
    | ok r =>
        rw [hread] at h
        obtain ⟨hsame, hformat⟩ := unchanged_of_perform h
        exact ⟨hsame, .inr (.inr hformat)⟩
  · intro template args m m' fault h
    have hperform : (printfTagged template args).perform m = some (.error fault, m') := by
      simp only [perform, Action.bind_apply, h]
    exact unchanged_of_perform hperform

/-- The second directive of `%d%*d` has no width, after the first was expanded; the target of the
copy is good but its source is null. -/
theorem failed_call_unchanged_late :
    let now : Instant := { seconds := 0, microseconds := 0 }
    let memory : Memory :=
      { blocks := #[(Memory.terminated ['%', 'd', '%', '*', 'd']).toArray, #[.int 9]] }
    let m : Machine := { memory := memory }
    let fault : Fault := .format (.nonFiniteWidth ['%', '*', 'd'])
    (∃ m', Action.call now "sprintf".toList [.int 0, .block 1, .int 0, .block 0, .int 7] m =
        some (.error fault, m') ∧ m' = m) ∧
      (∃ m', Action.call now "strcpy".toList [.int 0, .block 1, .int 0, .null] m =
        some (.error (.nullPointer .strcpy), m') ∧ m' = m) ∧
      ∃ m', Action.printfTagged { block := 0 } [.scalar (.int 7)] m =
        some (.error fault, m') ∧ m' = m := by
  intro now memory m fault
  have hsprintf : Action.call now "sprintf".toList
      [.int 0, .block 1, .int 0, .block 0, .int 7] m = some (.error fault, m) := by rfl
  have hstrcpy : Action.call now "strcpy".toList [.int 0, .block 1, .int 0, .null] m =
      some (.error (.nullPointer .strcpy), m) := by rfl
  have htagged : Action.printfTagged { block := 0 } [.scalar (.int 7)] m =
      some (.error fault, m) := by rfl
  obtain ⟨hcall, hprint⟩ := failed_call_unchanged
  exact ⟨⟨m, hsprintf, (hcall _ _ _ _ _ _ hsprintf).1⟩,
    ⟨m, hstrcpy, (hcall _ _ _ _ _ _ hstrcpy).1⟩, m, htagged, (hprint _ _ _ _ _ htagged).1⟩

end Request

end CellMachine
