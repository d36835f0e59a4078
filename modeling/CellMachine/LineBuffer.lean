import CellMachine.Text.Basic
/-!
# Line buffers

An output stream hands on complete lines and holds what follows the last newline.  The main
statements follow the stream's whole text, `stream`: `stream_push`, `stream_flush`.
-/

namespace CellMachine

/-- The lines that a stream has emitted, oldest first, the text that it holds, and a count of lines
that is kept as they are emitted. -/
structure LineBuffer where
  lines : List Text := []
  pending : Text := []
  emitted : Nat := 0
deriving DecidableEq

namespace LineBuffer

/-- Puts a character in front of a text that is cut into lines and a remainder. -/
def consLine (c : Char) : List Text × Text → List Text × Text
  | (lines, rest) =>
    if c = '\n' then ([] :: lines, rest)
    else match lines with
      | [] => ([], c :: rest)
      | line :: more => ((c :: line) :: more, rest)

/-- The complete lines of a text without their newlines, and what follows the last one. -/
def splitLines (text : Text) : List Text × Text := text.foldr consLine ([], [])

/-- All that was written: each line with its newline, then the text held. -/
def stream (b : LineBuffer) : Text := b.lines.flatMap (· ++ ['\n']) ++ b.pending

/-- Appends text and emits nothing. -/
def push (b : LineBuffer) (text : Text) : LineBuffer := { b with pending := b.pending ++ text }

/-- Emits every complete line and holds the rest. -/
def flush (b : LineBuffer) : LineBuffer :=
  let parts := splitLines b.pending
  { lines := b.lines ++ parts.1, pending := parts.2, emitted := b.emitted + parts.1.length }

/-- Appends text and flushes. -/
def write (b : LineBuffer) (text : Text) : LineBuffer := (b.push text).flush

/-- Appends a character; a newline flushes. -/
def putChar (b : LineBuffer) (c : Char) : LineBuffer :=
  if c = '\n' then (b.push [c]).flush else b.push [c]

/-- Flushes, then emits what is held as a last line unless it is empty. -/
def finish (b : LineBuffer) : LineBuffer :=
  let flushed := b.flush
  if flushed.pending = [] then flushed
  else
    { lines := flushed.lines ++ [flushed.pending], pending := [], emitted := flushed.emitted + 1 }

theorem splitLines_cons (c : Char) (text : Text) :
    splitLines (c :: text) = consLine c (splitLines text) := rfl

/-- Cutting a text into lines loses nothing. -/
theorem splitLines_flatMap (text : Text) :
    (splitLines text).1.flatMap (· ++ ['\n']) ++ (splitLines text).2 = text := by
  induction text with
  | nil => rfl
  | cons c text ih =>
      rw [splitLines_cons]
      generalize splitLines text = parts at ih
      obtain ⟨lines, rest⟩ := parts
      simp only [consLine]
      by_cases hc : c = '\n'
      · simp_all
      · cases lines <;> simp_all

@[simp] theorem stream_push (b : LineBuffer) (text : Text) :
    (b.push text).stream = b.stream ++ text := by
  simp [stream, push]

@[simp] theorem stream_flush (b : LineBuffer) : b.flush.stream = b.stream := by
  have hwhole := splitLines_flatMap b.pending
  simp only [stream, flush, List.flatMap_append, List.append_assoc, hwhole]

@[simp] theorem stream_write (b : LineBuffer) (text : Text) :
    (b.write text).stream = b.stream ++ text := by
  simp [write]

@[simp] theorem stream_putChar (b : LineBuffer) (c : Char) :
    (b.putChar c).stream = b.stream ++ [c] := by
  simp only [putChar]
  split <;> simp

end LineBuffer

end CellMachine
