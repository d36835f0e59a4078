import CellMachine.Proofs.Output
import CellMachine.Proofs.Returning
import CellMachine.Proofs.WholeValues
/-!
# Characters

A character can be printed with a template, which takes its code through a double and flushes the
stream, or put by its code, which flushes only at a newline.  Between calls no newline waits in a
stream, so the flush makes no difference.  Main statement: from every machine that a program can
bring about both ways lead to the same machine, whatever the code.
-/

namespace CellMachine

/-- In a buffer that has nothing to emit, a character is written as it is put. -/
theorem LineBuffer.Settled.write_singleton {b : LineBuffer} (h : b.Settled) (c : Char) :
    b.write [c] = b.putChar c := by
  apply (h.toSound.write [c]).eq_of_stream_eq (h.putChar c)
  rw [stream_write, stream_putChar]

/-! ## Reachable machines -/

/-- The machines that a program can bring about: it calls functions, works on memory itself and may
end the streams at any time. -/
inductive Machine.Reachable : Machine → Prop
  | boot (config : Config) : Reachable (boot config)
  | event {m m' : Machine} {e : Event} {result : Except Fault (List Value)} :
      Reachable m → e.perform m = some (result, m') → Reachable m'
  | shutdown {m : Machine} : Reachable m → Reachable m.shutdown

theorem Machine.settled_shutdown {m : Machine} (h : m.stdout.Settled) :
    m.shutdown.stdout.Settled := by
  unfold shutdown
  split
  · exact h.toSound.finish
  · exact h.toSound.flush

theorem Machine.Reachable.settled {m : Machine} (h : m.Reachable) : m.stdout.Settled := by
  induction h with
  | boot config => exact LineBuffer.settled_empty
  | event _ hperform ih => exact (Event.appends_of_perform (s := .stdout) hperform).settled ih
  | shutdown _ ih => exact settled_shutdown ih

/-! ## Printing -/

theorem Template.checkedFormat_char (m : Memory) (v : Value) :
    checkedFormat m ['%', 'c'] [v] = some (.ok [v.toChar]) := rfl

theorem Action.printf_char {m : Machine} {template : Pointer}
    (h : m.memory.textAt template = ['%', 'c']) (hsettled : m.stdout.Settled) (n : Int64) :
    printf template [.int n] m =
      some (.ok 1, { m with stdout := m.stdout.putChar (Text.ofCode n) }) := by
  have hvalues : Vararg.resolveAll m.memory [.int n] = [.int n] := rfl
  rw [printf_apply, h, hvalues, Template.checkedFormat_char, Value.toChar_int]
  simp only [Option.map_some, hsettled.write_singleton]
  rfl

/-- From every reachable machine, the template `%c` with an integer and the function that puts a
character by its code lead to the same machine, called with typed arguments or by name.  One
character is added to the standard output: the one that the integer is the code of, or the
replacement character if there is none.  So nothing that is called afterwards tells the two apart,
neither by the lines of a stream nor by what waits in it. -/
theorem Machine.character_printed_alike (m : Machine) (template : Pointer) (n : Int64)
    (hm : m.Reachable) (htemplate : m.memory.textAt template = ['%', 'c']) :
    ∃ (c : Char) (after : Machine),
      (Text.IsScalar n.toInt → (c.toNat : ℤ) = n.toInt) ∧
      (¬Text.IsScalar n.toInt → c.toNat = 0xFFFD) ∧
      Action.printf template [.int n] m = some (.ok 1, after) ∧
      Action.putchar n m = some (.ok n, after) ∧
      (∀ now : Instant,
        (template.offset < 2 ^ 63 →
          Action.call now "printf".toList (template.toPair ++ [.int n]) m =
            some (.ok [.int 1], after)) ∧
        Action.call now "putchar".toList [.int n] m = some (.ok [.int n], after)) ∧
      after = { m with stdout := after.stdout } ∧
      after.stdout.stream = m.stdout.stream ++ [c] ∧
      '\n' ∉ after.stdout.pending ∧
      ∀ continuation : List Event,
        Event.session (.request (.printf template [.int n]) :: continuation) m =
          Event.session (.request (.putchar n) :: continuation) m := by
  have hsettled := hm.settled
  have hprintf := Action.printf_char htemplate hsettled n
  have hputchar : Action.putchar n m =
      some (.ok n, { m with stdout := m.stdout.putChar (Text.ofCode n) }) := rfl
  refine ⟨Text.ofCode n, _, Text.toNat_ofCode, ?_, hprintf, hputchar, ?_, rfl,
    LineBuffer.stream_putChar _ _, (hsettled.putChar _).newline_not_mem_pending, ?_⟩
  · intro hscalar
    rw [Text.ofCode_of_not_isScalar hscalar]
    rfl
  · intro now
    refine ⟨?_, Action.call_putchar now (.int n) m⟩
    intro hoffset
    have hformat : Template.checkedFormat m.memory (m.memory.textAt template)
        (Vararg.resolveAll m.memory [.int n]) = some (.ok [Text.ofCode n]) := by
      rw [htemplate, ← Value.toChar_int]
      rfl
    rw [Action.call_printf hoffset hformat, hsettled.write_singleton]
    rfl
  · intro continuation
    simp only [Event.session, Event.perform, Request.perform, Action.bind_apply, hprintf, hputchar,
      Action.pure_apply, Option.bind_some]

/-- Behind a line that is not finished: a newline, which ends it, and an integer that is rounded on
its way through a double. -/
theorem Machine.character_printed_alike_newline :
    let m : Machine :=
      { memory := ((boot {}).memory.allocText ['%', 'c']).2, stdout := { pending := ['a'] } }
    let template : Pointer := { block := 3 }
    m.Reachable ∧ m.memory.textAt template = ['%', 'c'] ∧
      Action.printf template [.int 10] m =
        some (.ok 1, { m with stdout := { lines := [['a']], emitted := 1 } }) ∧
      ∃ (c : Char) (after : Machine), c.toNat = 0xFFFD ∧
        Action.printf template [.int 9007199254740993] m = some (.ok 1, after) ∧
        after.stdout.stream = ['a', c] := by
  intro m template
  have hm : m.Reachable := by
    have hedit : Reachable { (boot {}) with memory := m.memory } :=
      (Reachable.boot {}).event (e := .edit fun _ => m.memory) rfl
    exact hedit.event (e := .request (.putchar 97)) rfl
  have htemplate : m.memory.textAt template = ['%', 'c'] := by decide +kernel
  obtain ⟨_, _, -, -, hprintf, hputchar, -⟩ :=
    character_printed_alike m template 10 hm htemplate
  obtain ⟨c, after, -, hreplaced, hlarge, -, -, -, hstream, -⟩ :=
    character_printed_alike m template 9007199254740993 hm htemplate
  have hscalar : ¬Text.IsScalar (9007199254740993 : Int64).toInt := by
    unfold Text.IsScalar
    decide
  obtain ⟨-, rfl⟩ := Prod.mk.inj (Option.some.inj hputchar)
  exact ⟨hm, htemplate, hprintf, c, after, hreplaced hscalar, hlarge, hstream⟩

end CellMachine
