import CellMachine.Proofs.Lines
import CellMachine.Proofs.Request
/-!
# Output over whole sessions

A session is a sequence of calls, by name or with typed arguments, with work of the program on
memory in between.  Each event adds its own text to a stream and nothing else does, whatever order
the events come in and whichever of them fail.  Main statement: the lines that a stream has emitted
and the text that it holds make up exactly the text of its events.
-/

namespace CellMachine

theorem Stream.ofPointer?_eq_some_iff {file : Pointer} {s : Stream} :
    ofPointer? file = some s ↔ file.block = s.block := by
  obtain ⟨b, offset⟩ := file
  rcases b with _ | _ | _ | b <;> cases s <;> simp [ofPointer?, block]

/-- The buffer of a stream; nothing is ever written to the standard input. -/
def Machine.buffer (m : Machine) : Stream → LineBuffer
  | .stdin => {}
  | .stdout => m.stdout
  | .stderr => m.stderr

/-- The machine `m'` differs from `m` in a stream by the text `text`, and is as settled there. -/
structure Machine.Appends (s : Stream) (text : Text) (m m' : Machine) : Prop where
  stream_eq : (m'.buffer s).stream = (m.buffer s).stream ++ text
  settled : (m.buffer s).Settled → (m'.buffer s).Settled

theorem Machine.appends_nil {s : Stream} {m m' : Machine} (h : m'.buffer s = m.buffer s) :
    m.Appends s [] m' :=
  ⟨by rw [h, List.append_nil], fun hsettled => h ▸ hsettled⟩

theorem Machine.appends_stdout (s : Stream) {text : Text} {m : Machine} {b : LineBuffer}
    (hstream : b.stream = m.stdout.stream ++ text) (hsettled : m.stdout.Settled → b.Settled) :
    m.Appends s (if s = .stdout then text else []) { m with stdout := b } := by
  cases s with
  | stdout => exact ⟨hstream, hsettled⟩
  | stdin | stderr => exact appends_nil rfl

theorem Machine.appends_stderr (s : Stream) {text : Text} {m : Machine} {b : LineBuffer}
    (hstream : b.stream = m.stderr.stream ++ text) (hsettled : m.stderr.Settled → b.Settled) :
    m.Appends s (if s = .stderr then text else []) { m with stderr := b } := by
  cases s with
  | stderr => exact ⟨hstream, hsettled⟩
  | stdin | stdout => exact appends_nil rfl

theorem Machine.Appends.trans {s : Stream} {text more : Text} {m m₁ m₂ : Machine}
    (h : m.Appends s text m₁) (h' : m₁.Appends s more m₂) : m.Appends s (text ++ more) m₂ :=
  ⟨by rw [h'.stream_eq, h.stream_eq, List.append_assoc], fun hsettled =>
    h'.settled (h.settled hsettled)⟩

namespace Request

/-- The text that a request adds to a stream. -/
def output (s : Stream) (m : Memory) (r : Request) : Text :=
  match r with
  | .printf _ _ | .printfTagged _ _ =>
    if s = .stdout then ((r.rendered m).bind Except.toOption).getD [] else []
  | .putchar code => if s = .stdout then [Text.ofCode code] else []
  | .putc code file =>
    if s ≠ .stdin ∧ file.map Pointer.block = some s.block then [Text.ofCode code] else []
  | _ => []

theorem output_putc {s target : Stream} {m : Memory} {code : Int64} {file : Pointer}
    (h : Stream.ofPointer? file = some target) (htarget : target ≠ .stdin) :
    (putc code (some file)).output s m = if s = target then [Text.ofCode code] else [] := by
  have hblock := Stream.ofPointer?_eq_some_iff.mp h
  cases s <;> cases target <;> simp_all [output, Stream.block]

theorem output_putc_elsewhere {s : Stream} {m : Memory} {code : Int64} {file : Option Pointer}
    (hstdout : file.bind Stream.ofPointer? ≠ some .stdout)
    (hstderr : file.bind Stream.ofPointer? ≠ some .stderr) :
    (putc code file).output s m = [] := by
  have hnone : ¬(s ≠ .stdin ∧ file.map Pointer.block = some s.block) := by
    rintro ⟨hs, hfile⟩
    obtain ⟨p, rfl, hblock⟩ := Option.map_eq_some_iff.mp hfile
    have hstream : Stream.ofPointer? p = some s := Stream.ofPointer?_eq_some_iff.mpr hblock
    cases s with
    | stdin => exact hs rfl
    | stdout => exact hstdout hstream
    | stderr => exact hstderr hstream
  simp only [output, if_neg hnone]

theorem Returns.appends {s : Stream} {r : Request} {m m' : Machine} {regs : List Value}
    (h : Returns m r regs m') : m.Appends s (r.output s m.memory) m' := by
  cases h with
  | printf htext | printfTagged htext =>
      simp only [output, htext, Option.bind_some, Except.toOption, Option.getD_some]
      exact Machine.appends_stdout s (LineBuffer.stream_write _ _) fun h => h.toSound.write _
  | putchar =>
      exact Machine.appends_stdout s (LineBuffer.stream_putChar _ _) fun h => h.putChar _
  | putcStdout hfile =>
      rw [output_putc hfile (by decide)]
      exact Machine.appends_stdout s (LineBuffer.stream_putChar _ _) fun h => h.putChar _
  | putcStderr hfile =>
      rw [output_putc hfile (by decide)]
      exact Machine.appends_stderr s (LineBuffer.stream_putChar _ _) fun h => h.putChar _
  | putcElsewhere hstdout hstderr =>
      rw [output_putc_elsewhere hstdout hstderr]
      exact Machine.appends_nil rfl
  | @free p =>
      apply Machine.appends_nil
      unfold Machine.release
      split <;> cases s <;> rfl
  -- The remaining functions work on memory and counters only.
  | _ =>
      apply Machine.appends_nil
      cases s <;> rfl

theorem output_eq_nil_of_rendered {s : Stream} {m : Memory} {r : Request} {e : FormatError}
    (h : r.rendered m = some (.error e)) : r.output s m = [] := by
  cases r with
  | printf template values | printfTagged template args =>
      simp [output, h, Except.toOption]
  | sprintf target template values => rfl
  | _ => cases h

theorem appends_of_perform {s : Stream} {r : Request} {m m' : Machine}
    {result : Except Fault (List Value)} (h : r.perform m = some (result, m')) :
    m.Appends s (r.output s m.memory) m' := by
  have hends := r.ends_perform m
  rw [h] at hends
  cases hends with
  | returns hreturns => exact hreturns.appends
  | fails hformat =>
      rw [output_eq_nil_of_rendered hformat]
      exact Machine.appends_nil rfl

end Request

/-- What can happen in a session. -/
inductive Event where
  /-- A function is called with typed arguments. -/
  | request (r : Request)
  /-- A function is called by name at an instant. -/
  | call (now : Instant) (name : Text) (args : List Value)
  /-- The program works on memory itself. -/
  | edit (change : Memory → Memory)

namespace Event

def perform : Event → Action (List Value)
  | .request r => r.perform
  | .call now name args => Action.call now name args
  | .edit change => do
    modify fun m => { m with memory := change m.memory }
    return []

/-- The text that an event adds to a stream; one that fails adds nothing. -/
def output (s : Stream) (m : Memory) : Event → Text
  | .request r => r.output s m
  | .call now name args =>
    match Request.ofCall now name args with
    | .ok r => r.output s m
    | .error _ => []
  | .edit _ => []

theorem appends_of_perform {s : Stream} {e : Event} {m m' : Machine}
    {result : Except Fault (List Value)} (h : e.perform m = some (result, m')) :
    m.Appends s (e.output s m.memory) m' := by
  cases e with
  | request r => exact Request.appends_of_perform h
  | call now name args =>
      simp only [perform, Request.call_eq_attempt] at h
      simp only [output]
      cases hread : Request.ofCall now name args with
      | error fault =>
          rw [hread] at h
          obtain ⟨-, rfl⟩ := Prod.mk.inj (Option.some.inj h)
          exact Machine.appends_nil rfl
      | ok r =>
          rw [hread] at h
          exact Request.appends_of_perform h
  | edit change =>
      obtain ⟨-, rfl⟩ := Prod.mk.inj (Option.some.inj h)
      apply Machine.appends_nil
      cases s <;> rfl

/-- The machine behind a session; a fault does not end it. -/
def session : List Event → Machine → Option Machine
  | [], m => some m
  | e :: rest, m => (e.perform m).bind fun outcome => session rest outcome.2

/-- The text that the events of a session add to a stream, in order. -/
def transcript (s : Stream) : List Event → Machine → Text
  | [], _ => []
  | e :: rest, m =>
    e.output s m.memory ++ (e.perform m).elim [] fun outcome => transcript s rest outcome.2

theorem appends_session {s : Stream} {events : List Event} {m m' : Machine}
    (h : session events m = some m') : m.Appends s (transcript s events m) m' := by
  -- The rest of a session runs from another machine, and its texts are read from that one's memory.
  induction events generalizing m with
  | nil =>
      obtain rfl := Option.some.inj h
      exact Machine.appends_nil rfl
  | cons e rest ih =>
      obtain ⟨⟨result, next⟩, hperform, hrest⟩ := Option.bind_eq_some_iff.mp h
      simp only [transcript, hperform, Option.elim_some]
      exact (appends_of_perform hperform).trans (ih hrest)

theorem settled_session {s : Stream} {events : List Event} {config : Config} {m : Machine}
    (h : session events (Machine.boot config) = some m) :
    (m.buffer s).stream = transcript s events (Machine.boot config) ∧ (m.buffer s).Settled := by
  have hboot : (Machine.boot config).buffer s = {} := by
    cases s <;> rfl
  have happends : (Machine.boot config).Appends s _ m := appends_session h
  have hstream := happends.stream_eq
  have hsettled := happends.settled
  rw [hboot] at hstream hsettled
  exact ⟨hstream, hsettled LineBuffer.settled_empty⟩

/-! ## Printing -/

/-- The event prints a template. -/
def Prints : Event → Prop
  | .request (.printf _ _) | .request (.printfTagged _ _) => True
  | .call _ name _ => name = "printf".toList
  | _ => False

theorem prints_of_ofCall {now : Instant} {args : List Value} {r : Request}
    (h : Request.ofCall now "printf".toList args = .ok r) : (request r).Prints := by
  have hname : Symbol.ofName? "printf".toList = some .printf := rfl
  simp only [Request.ofCall, hname, Request.ofFlat, Request.follow] at h
  by_cases hcount : args.length < Symbol.printf.arity
  · rw [if_pos hcount] at h
    cases h
  · rw [if_neg hcount] at h
    cases htemplate : Action.pointer? args 0 with
    | none =>
        rw [htemplate] at h
        cases h
    | some template =>
        rw [htemplate] at h
        obtain rfl := Except.ok.inj h
        trivial

/-- What an event that prints returns is how many characters it adds. -/
theorem registers_of_prints {e : Event} {m m' : Machine} {regs : List Value} (he : e.Prints)
    (h : e.perform m = some (.ok regs, m')) :
    regs = [.int (Int64.ofNat (e.output .stdout m.memory).length)] := by
  have hrequest : ∀ r : Request, (request r).Prints → r.perform m = some (.ok regs, m') →
      regs = [.int (Int64.ofNat (r.output .stdout m.memory).length)] := by
    intro r hr hperform
    cases Request.returns_of_perform hperform with
    | printf htext | printfTagged htext => simp [Request.output, htext, Except.toOption]
    | _ => exact hr.elim
  cases e with
  | request r => exact hrequest r he h
  | call now name args =>
      obtain rfl : name = "printf".toList := he
      simp only [perform, Request.call_eq_attempt] at h
      simp only [output]
      cases hread : Request.ofCall now "printf".toList args with
      | error fault =>
          rw [hread] at h
          cases h
      | ok r =>
          rw [hread] at h
          exact hrequest r (prints_of_ofCall hread) h
  | edit change => exact he.elim

/-- At every point of a session, each stream's lines and pending text make up what the events have
added to it, the lines hold no newline and are counted, and no newline waits.  An event that prints
returns how many characters it adds.  What a session leaves on the standard output is determined by
the text added there. -/
theorem session_conserves_output (config : Config) (events : List Event) (m : Machine)
    (h : session events (Machine.boot config) = some m) :
    m.stdout.lines.flatMap (· ++ ['\n']) ++ m.stdout.pending =
      transcript .stdout events (Machine.boot config) ∧
    m.stderr.lines.flatMap (· ++ ['\n']) ++ m.stderr.pending =
      transcript .stderr events (Machine.boot config) ∧
    (∀ b ∈ [m.stdout, m.stderr], (∀ line ∈ b.lines, '\n' ∉ line) ∧ '\n' ∉ b.pending ∧
      b.emitted = b.lines.length) ∧
    (∀ (e : Event) (regs : List Value) (m' : Machine), e.Prints →
      e.perform m = some (.ok regs, m') →
        m'.stdout.stream = m.stdout.stream ++ e.output .stdout m.memory ∧
        regs = [.int (Int64.ofNat (e.output .stdout m.memory).length)]) ∧
    (∀ (config' : Config) (events' : List Event) (m' : Machine),
      session events' (Machine.boot config') = some m' →
      transcript .stdout events' (Machine.boot config') =
        transcript .stdout events (Machine.boot config) →
      m'.stdout = m.stdout) := by
  obtain ⟨hstdout, hout⟩ : m.stdout.stream = _ ∧ m.stdout.Settled :=
    settled_session (s := .stdout) h
  obtain ⟨hstderr, herr⟩ : m.stderr.stream = _ ∧ m.stderr.Settled :=
    settled_session (s := .stderr) h
  refine ⟨hstdout, hstderr, ?_, ?_, ?_⟩
  · intro b hb
    have hsettled : b.Settled := by
      rcases List.mem_pair.mp hb with rfl | rfl
      · exact hout
      · exact herr
    exact ⟨hsettled.newline_not_mem_lines, hsettled.newline_not_mem_pending,
      hsettled.emitted_eq⟩
  · intro e regs m' he hperform
    have happends : m.Appends .stdout _ m' := appends_of_perform hperform
    exact ⟨happends.stream_eq, registers_of_prints he hperform⟩
  · intro config' events' m' h' htext
    obtain ⟨hstdout', hout'⟩ : m'.stdout.stream = _ ∧ m'.stdout.Settled :=
      settled_session (s := .stdout) h'
    apply hout'.eq_of_stream_eq hout
    rw [hstdout', hstdout, htext]

/-- One session prints a line and a half, puts a character on the other stream, fails to print, and
puts a newline; another puts the same text in characters. -/
theorem session_conserves_output_interleaved :
    let now : Instant := { seconds := 0, microseconds := 0 }
    let events : List Event :=
      [.edit fun memory => (memory.allocText ['a', '\n', '%', 'd']).2,
        .call now "printf".toList [.int 0, .block 3, .int 7],
        .request (.putc 66 (some { block := Stream.stderr.block })),
        .call now "printf".toList [.int 0, .null],
        .request (.putchar 10)]
    let others : List Event :=
      [.call now "putchar".toList [.int 97], .request (.putchar 10), .request .malloc,
        .request (.putc 55 (some { block := Stream.stdout.block })), .request (.putchar 10)]
    let files : Array (Array Value) := #[#[.int 0], #[.int 0], #[.int 0]]
    let template : Array Value := #[.int 97, .int 10, .int 37, .int 100, .int 0]
    let m : Machine :=
      { memory := { blocks := files.push template }
        stdout := { lines := [['a'], ['7']], pending := [], emitted := 2 }
        stderr := { pending := ['B'] } }
    let other : Machine :=
      { memory := { blocks := files.push #[] }, heap := { allocations := 1 }, stdout := m.stdout }
    let print : Event := .request (.printf { block := 3 } [.int 5])
    session events (Machine.boot {}) = some m ∧ session others (Machine.boot {}) = some other ∧
      transcript .stdout events (Machine.boot {}) = ['a', '\n', '7', '\n'] ∧
      transcript .stderr events (Machine.boot {}) = m.stderr.pending ∧
      '\n' ∉ m.stdout.pending ∧
      print.perform m =
        some (.ok [.int 3], { m with stdout := m.stdout.write ['a', '\n', '5'] }) ∧
      [Value.int 3] = [.int (Int64.ofNat (print.output .stdout m.memory).length)] ∧
      other.stdout = m.stdout := by
  intro now events others files template m other print
  have hm : session events (Machine.boot {}) = some m := by decide +kernel
  have hother : session others (Machine.boot {}) = some other := by decide +kernel
  have htext : transcript .stdout events (Machine.boot {}) = ['a', '\n', '7', '\n'] := by
    decide +kernel
  have hsameText : transcript .stdout others (Machine.boot {}) =
      transcript .stdout events (Machine.boot {}) := by decide +kernel
  have hprint : print.perform m =
      some (.ok [.int 3], { m with stdout := m.stdout.write ['a', '\n', '5'] }) := by
    decide +kernel
  obtain ⟨-, hstderr, hbuffers, hprints, hsame⟩ := session_conserves_output {} events m hm
  obtain ⟨-, hpending, -⟩ := hbuffers m.stdout (by simp)
  exact ⟨hm, hother, htext, hstderr.symm, hpending, hprint, (hprints print _ _ trivial hprint).2,
    hsame {} others other hother hsameText⟩

end Event

end CellMachine
