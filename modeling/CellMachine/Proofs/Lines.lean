import CellMachine.LineBuffer
import Mathlib.Data.List.DropRight
/-!
# Runs of a line buffer

A text is cut into lines in one way only.  A buffer that holds no newline is therefore determined
by its stream, and what a run of operations leaves can be read off the stream alone.  Main
statement: over every run the stream is what was written, with a newline more for each line that a
finish had to close.
-/

namespace CellMachine.LineBuffer

/-! ## Cutting a text into lines -/

theorem splitLines_of_not_mem {text : Text} (h : '\n' ∉ text) : splitLines text = ([], text) := by
  induction text with
  | nil => rfl
  | cons c text ih =>
      have hc : c ≠ '\n' := fun heq => h (by simp [heq])
      rw [splitLines_cons, ih fun hmem => h (by simp [hmem]), consLine, if_neg hc]

theorem splitLines_line_append {line : Text} (h : '\n' ∉ line) (rest : Text) :
    splitLines (line ++ '\n' :: rest) = (line :: (splitLines rest).1, (splitLines rest).2) := by
  induction line with
  | nil => rfl
  | cons c line ih =>
      have hc : c ≠ '\n' := fun heq => h (by simp [heq])
      rw [List.cons_append, splitLines_cons, ih fun hmem => h (by simp [hmem]), consLine,
        if_neg hc]

/-- Lines and a remainder that hold no newline are the only cut of the text that they make up. -/
theorem splitLines_lines_append {lines : List Text} {rest : Text}
    (hlines : ∀ line ∈ lines, '\n' ∉ line) (hrest : '\n' ∉ rest) :
    splitLines (lines.flatMap (· ++ ['\n']) ++ rest) = (lines, rest) := by
  induction lines with
  | nil => exact splitLines_of_not_mem hrest
  | cons line lines ih =>
      have htail := ih fun other hmem => hlines other (by simp [hmem])
      rw [List.flatMap_cons, List.append_assoc, List.append_assoc, List.singleton_append,
        splitLines_line_append (hlines line (by simp)), htail]

theorem newline_not_mem_splitLines (text : Text) :
    (∀ line ∈ (splitLines text).1, '\n' ∉ line) ∧ '\n' ∉ (splitLines text).2 := by
  induction text with
  | nil => simp [splitLines]
  | cons c text ih =>
      rw [splitLines_cons]
      obtain ⟨hlines, hrest⟩ := ih
      cases hparts : splitLines text with
      | mk lines rest =>
          rw [hparts] at hlines hrest
          by_cases hc : c = '\n'
          · simp only [consLine, hc, if_true]
            refine ⟨?_, hrest⟩
            intro line hmem
            rcases List.mem_cons.mp hmem with rfl | hmem
            · simp
            · exact hlines line hmem
          · simp only [consLine, hc, if_false]
            cases lines with
            | nil => exact ⟨by simp, by simpa [Ne.symm hc] using hrest⟩
            | cons first lines =>
                refine ⟨?_, hrest⟩
                intro line hmem
                rcases List.mem_cons.mp hmem with rfl | hmem
                · have hfirst := hlines first (by simp)
                  simpa [Ne.symm hc] using hfirst
                · exact hlines line (by simp [hmem])

/-! ## Buffers -/

/-- Every line was cut at its newlines, and the count is the number of lines. -/
structure Sound (b : LineBuffer) : Prop where
  newline_not_mem_lines : ∀ line ∈ b.lines, '\n' ∉ line
  emitted_eq : b.emitted = b.lines.length

/-- A sound buffer that has nothing to emit. -/
structure Settled (b : LineBuffer) : Prop extends Sound b where
  newline_not_mem_pending : '\n' ∉ b.pending

theorem settled_empty : Settled {} := ⟨⟨by simp, rfl⟩, by simp⟩

theorem Settled.splitLines_stream {b : LineBuffer} (h : b.Settled) :
    splitLines b.stream = (b.lines, b.pending) :=
  splitLines_lines_append h.newline_not_mem_lines h.newline_not_mem_pending

/-- A settled buffer is determined by its stream. -/
theorem Settled.eq_of_stream_eq {b c : LineBuffer} (hb : b.Settled) (hc : c.Settled)
    (h : b.stream = c.stream) : b = c := by
  have hparts : (b.lines, b.pending) = (c.lines, c.pending) := by
    rw [← hb.splitLines_stream, ← hc.splitLines_stream, h]
  obtain ⟨hlines, hpending⟩ := Prod.mk.inj hparts
  have hemitted : b.emitted = c.emitted := by
    rw [hb.emitted_eq, hc.emitted_eq, hlines]
  obtain ⟨lines, pending, emitted⟩ := b
  simp_all

theorem Sound.push {b : LineBuffer} (h : b.Sound) (text : Text) : (b.push text).Sound :=
  ⟨h.newline_not_mem_lines, h.emitted_eq⟩

theorem Sound.flush {b : LineBuffer} (h : b.Sound) : b.flush.Settled := by
  obtain ⟨hcut, hrest⟩ := newline_not_mem_splitLines b.pending
  refine ⟨⟨?_, ?_⟩, hrest⟩
  · intro line hmem
    rcases List.mem_append.mp hmem with hold | hnew
    · exact h.newline_not_mem_lines line hold
    · exact hcut line hnew
  · simp only [LineBuffer.flush, List.length_append, h.emitted_eq]

theorem Sound.write {b : LineBuffer} (h : b.Sound) (text : Text) : (b.write text).Settled :=
  (h.push text).flush

theorem Sound.putChar {b : LineBuffer} (h : b.Sound) (c : Char) : (b.putChar c).Sound := by
  unfold LineBuffer.putChar
  split
  · exact (h.push [c]).flush.toSound
  · exact h.push [c]

theorem Sound.putChar_newline {b : LineBuffer} (h : b.Sound) : (b.putChar '\n').Settled :=
  (h.push ['\n']).flush

/-- A character other than a newline may wait; a newline does not. -/
theorem Settled.putChar {b : LineBuffer} (h : b.Settled) (c : Char) : (b.putChar c).Settled := by
  by_cases hc : c = '\n'
  · subst hc
    exact h.toSound.putChar_newline
  · refine ⟨h.toSound.putChar c, ?_⟩
    have hpending := h.newline_not_mem_pending
    simp [LineBuffer.putChar, hc, push, hpending, Ne.symm hc]

theorem Settled.flush_eq {b : LineBuffer} (h : b.Settled) : b.flush = b :=
  h.toSound.flush.eq_of_stream_eq h (stream_flush b)

theorem finish_of_pending_eq_nil {b : LineBuffer} (h : b.flush.pending = []) :
    b.finish = b.flush := by
  simp only [finish, h, if_true]

theorem finish_of_pending_ne_nil {b : LineBuffer} (h : b.flush.pending ≠ []) :
    b.finish = { lines := b.flush.lines ++ [b.flush.pending], pending := []
                 emitted := b.flush.emitted + 1 } := by
  simp only [finish, h, if_false]

theorem pending_finish (b : LineBuffer) : b.finish.pending = [] := by
  by_cases h : b.flush.pending = []
  · rw [finish_of_pending_eq_nil h, h]
  · rw [finish_of_pending_ne_nil h]

theorem Sound.finish {b : LineBuffer} (h : b.Sound) : b.finish.Settled := by
  have hflush := h.flush
  by_cases hpending : b.flush.pending = []
  · rw [finish_of_pending_eq_nil hpending]
    exact hflush
  · rw [finish_of_pending_ne_nil hpending]
    refine ⟨⟨?_, ?_⟩, by simp⟩
    · intro line hmem
      rcases List.mem_append.mp hmem with hold | hlast
      · exact hflush.newline_not_mem_lines line hold
      · rw [List.mem_singleton.mp hlast]
        exact hflush.newline_not_mem_pending
    · simp [hflush.emitted_eq]

theorem Settled.finish_eq {b : LineBuffer} (h : b.Settled) (hpending : b.pending = []) :
    b.finish = b := by
  have hflush := h.flush_eq
  rw [finish_of_pending_eq_nil (by rw [hflush, hpending]), hflush]

/-- The text behind the last newline of a stream. -/
def openLine (stream : Text) : Text := stream.rtakeWhile (· != '\n')

theorem openLine_lines_append (lines : List Text) {rest : Text} (h : '\n' ∉ rest) :
    openLine (lines.flatMap (· ++ ['\n']) ++ rest) = rest := by
  have hrest : ∀ c ∈ rest.reverse, (c != '\n') = true := by
    intro c hc
    rw [bne_iff_ne]
    rintro rfl
    exact h (List.mem_reverse.mp hc)
  have hlines : (lines.flatMap (· ++ ['\n'])).reverse.takeWhile (· != '\n') = [] := by
    rcases List.eq_nil_or_concat lines with rfl | ⟨front, last, rfl⟩
    · rfl
    · simp
  rw [openLine, List.rtakeWhile, List.reverse_append, List.takeWhile_append_of_pos hrest, hlines,
    List.append_nil, List.reverse_reverse]

/-- What a flush leaves is the open line of the stream. -/
theorem pending_flush (b : LineBuffer) : b.flush.pending = openLine b.stream := by
  have hpending : '\n' ∉ b.flush.pending := (newline_not_mem_splitLines b.pending).2
  rw [← stream_flush b]
  exact (openLine_lines_append b.flush.lines hpending).symm

/-- A finish closes the open line. -/
theorem stream_finish (b : LineBuffer) :
    b.finish.stream = if openLine b.stream = [] then b.stream else b.stream ++ ['\n'] := by
  rw [← pending_flush]
  by_cases hpending : b.flush.pending = []
  · rw [if_pos hpending, finish_of_pending_eq_nil hpending, stream_flush]
  · rw [if_neg hpending, finish_of_pending_ne_nil hpending, ← stream_flush b]
    simp [stream]

/-! ## Runs -/

inductive Op where
  | push (text : Text)
  | write (text : Text)
  | putChar (c : Char)
  | flush
  | finish
deriving DecidableEq

namespace Op

def apply (b : LineBuffer) : Op → LineBuffer
  | .push text => b.push text
  | .write text => b.write text
  | .putChar c => b.putChar c
  | .flush => b.flush
  | .finish => b.finish

/-- The text that an operation writes. -/
def text : Op → Text
  | .push text | .write text => text
  | .putChar c => [c]
  | .flush | .finish => []

/-- The stream behind an operation, said without a buffer. -/
def extend (stream : Text) : Op → Text
  | .finish => if openLine stream = [] then stream else stream ++ ['\n']
  | op => stream ++ op.text

/-- Whether an operation emits every complete line. -/
def flushes : Op → Bool
  | .push _ => false
  | .putChar c => c == '\n'
  | .write _ | .flush | .finish => true

theorem extend_of_ne_finish {op : Op} (h : op ≠ .finish) (stream : Text) :
    op.extend stream = stream ++ op.text := by
  cases op with
  | finish => exact absurd rfl h
  | _ => rfl

theorem sound_apply {b : LineBuffer} (h : b.Sound) (op : Op) : (op.apply b).Sound := by
  cases op with
  | push text => exact h.push text
  | write text => exact (h.write text).toSound
  | putChar c => exact h.putChar c
  | flush => exact h.flush.toSound
  | finish => exact h.finish.toSound

theorem settled_apply {b : LineBuffer} (h : b.Sound) {op : Op} (hop : op.flushes) :
    (op.apply b).Settled := by
  cases op with
  | push text => cases hop
  | write text => exact h.write text
  | putChar c =>
      obtain rfl : c = '\n' := by simpa [flushes] using hop
      exact h.putChar_newline
  | flush => exact h.flush
  | finish => exact h.finish

theorem stream_apply (b : LineBuffer) (op : Op) : (op.apply b).stream = op.extend b.stream := by
  cases op with
  | push text => exact stream_push b text
  | write text => exact stream_write b text
  | putChar c => exact stream_putChar b c
  | flush => simp [apply, extend, text]
  | finish => exact stream_finish b

end Op

/-- The buffer behind a run from the start. -/
def run (ops : List Op) : LineBuffer := ops.foldl Op.apply {}

/-- All that a run writes; a finish adds a newline if a line is open then. -/
def streamText (ops : List Op) : Text := ops.foldl Op.extend []

theorem run_concat (ops : List Op) (op : Op) : run (ops ++ [op]) = op.apply (run ops) := by
  simp [run]

theorem sound_run (ops : List Op) : (run ops).Sound := by
  induction ops using List.reverseRecOn with
  | nil => exact settled_empty.toSound
  | append_singleton ops op ih =>
      rw [run_concat]
      exact op.sound_apply ih

theorem settled_run_concat (ops : List Op) {op : Op} (h : op.flushes) :
    (run (ops ++ [op])).Settled := by
  rw [run_concat]
  exact op.settled_apply (sound_run ops) h

theorem stream_run (ops : List Op) : (run ops).stream = streamText ops := by
  induction ops using List.reverseRecOn with
  | nil => rfl
  | append_singleton ops op ih =>
      rw [run_concat, op.stream_apply, ih]
      simp [streamText]

/-- Where nothing is finished, operations only differ in the text that they write. -/
theorem streamText_eq_flatMap {ops : List Op} (h : .finish ∉ ops) :
    streamText ops = ops.flatMap Op.text := by
  induction ops using List.reverseRecOn with
  | nil => rfl
  | append_singleton ops op ih =>
      simp only [List.mem_append, List.mem_singleton, not_or] at h
      have hfront : streamText ops = ops.flatMap Op.text := ih h.1
      have hlast : streamText (ops ++ [op]) = op.extend (streamText ops) := by
        simp [streamText]
      rw [hlast, Op.extend_of_ne_finish (Ne.symm h.2), hfront]
      simp

/-- The run ends with an operation that flushes. -/
def EndsFlushed (ops : List Op) : Prop := ∃ front op, ops = front ++ [op] ∧ op.flushes

theorem EndsFlushed.settled_run {ops : List Op} (h : EndsFlushed ops) : (run ops).Settled := by
  obtain ⟨front, op, rfl, hop⟩ := h
  exact settled_run_concat front hop

/-- At every point of a run the emitted lines and the text held make up the stream, the lines hold
no newline and are counted.  A flush or a write leaves no newline to be emitted, a finish leaves
nothing, and to do it again changes nothing.  Two runs that flush last and never finish leave the
same if they write the same text. -/
theorem run_conserves_stream (ops : List Op) :
    (run ops).lines.flatMap (· ++ ['\n']) ++ (run ops).pending = streamText ops ∧
    (∀ line ∈ (run ops).lines, '\n' ∉ line) ∧
    (run ops).emitted = (run ops).lines.length ∧
    '\n' ∉ (run (ops ++ [Op.flush])).pending ∧
    (∀ text, '\n' ∉ (run (ops ++ [Op.write text])).pending) ∧
    (run (ops ++ [Op.finish])).pending = [] ∧
    run (ops ++ [Op.flush, Op.flush]) = run (ops ++ [Op.flush]) ∧
    run (ops ++ [Op.finish, Op.finish]) = run (ops ++ [Op.finish]) ∧
    (∀ others : List Op, .finish ∉ ops → .finish ∉ others → EndsFlushed ops →
      EndsFlushed others → ops.flatMap Op.text = others.flatMap Op.text →
      run ops = run others) := by
  have hsound := sound_run ops
  have hflush : (run (ops ++ [Op.flush])).Settled := settled_run_concat ops rfl
  have hfinish : (run (ops ++ [Op.finish])).Settled := settled_run_concat ops rfl
  have hempty : (run (ops ++ [Op.finish])).pending = [] := by
    rw [run_concat]
    exact pending_finish _
  have htwice : ∀ op : Op, run (ops ++ [op, op]) = op.apply (run (ops ++ [op])) := by
    intro op
    simp [run]
  refine ⟨stream_run ops, hsound.newline_not_mem_lines, hsound.emitted_eq,
    hflush.newline_not_mem_pending, ?_, hempty, ?_, ?_, ?_⟩
  · intro text
    have hwrite : (Op.write text).flushes := rfl
    exact (settled_run_concat ops hwrite).newline_not_mem_pending
  · rw [htwice]
    exact hflush.flush_eq
  · rw [htwice]
    exact hfinish.finish_eq hempty
  · intro others hops hothers hlast hlast' htext
    apply hlast.settled_run.eq_of_stream_eq hlast'.settled_run
    rw [stream_run, stream_run, streamText_eq_flatMap hops, streamText_eq_flatMap hothers, htext]

/-- A text with an empty line in it, pushed at once or put character by character. -/
theorem run_conserves_stream_split :
    let ops : List Op := [.push ['a', '\n', '\n', 'b'], .putChar 'c', .flush]
    let others : List Op := [.putChar 'a', .putChar '\n', .push [], .write ['\n', 'b', 'c']]
    .finish ∉ ops ∧ .finish ∉ others ∧ EndsFlushed ops ∧ EndsFlushed others ∧
      ops.flatMap Op.text = others.flatMap Op.text ∧ run ops = run others ∧
      run ops = { lines := [['a'], []], pending := ['b', 'c'], emitted := 2 } := by
  intro ops others
  have hops : .finish ∉ ops := by decide
  have hothers : .finish ∉ others := by decide
  have hlast : EndsFlushed ops := ⟨ops.take 2, .flush, rfl, rfl⟩
  have hlast' : EndsFlushed others := ⟨others.take 3, .write ['\n', 'b', 'c'], rfl, rfl⟩
  have htext : ops.flatMap Op.text = others.flatMap Op.text := by decide
  have hrun : run ops = { lines := [['a'], []], pending := ['b', 'c'], emitted := 2 } := by
    decide
  obtain ⟨-, -, -, -, -, -, -, -, hsame⟩ := run_conserves_stream ops
  exact ⟨hops, hothers, hlast, hlast', htext, hsame others hops hothers hlast hlast' htext, hrun⟩

end CellMachine.LineBuffer
