import CellMachine.Memory.Pointer
/-!
# Terminated text in memory

A text in memory is a run of character codes that ends before a cell whose integer is zero, or
before an unwritten cell.  This module reads and writes such runs, and has the copies and fills that
work cell by cell.  Main statement: `storeText_eq`, to store a text character by character is to
write one run of cells.
-/

namespace CellMachine

/-- Whether a cell ends a text. -/
def Value.endsText (v : Value) : Bool := !v.isDefined || v.toInt64 == 0

namespace Memory

/-- The written cells from a pointer on. -/
def cellsFrom (m : Memory) (p : Pointer) : List Value := (m.cells p.block).toList.drop p.offset

/-- The cells of the text at a pointer. -/
def textCells (m : Memory) (p : Pointer) : List Value :=
  (m.cellsFrom p).takeWhile fun v => !v.endsText

/-- The text at a pointer. -/
def textAt (m : Memory) (p : Pointer) : Text :=
  (m.textCells p).map fun v => Text.ofCode v.toInt64

/-- The cells of a text with its terminator. -/
def terminated (text : Text) : List Value :=
  text.map (fun c => .int (Text.toCode c)) ++ [.int 0]

/-- Adds a block that holds a text. -/
def allocText (m : Memory) (text : Text) : Pointer × Memory :=
  let added := m.alloc (terminated text).toArray
  ({ block := added.1 }, added.2)

/-- Writes a text and its terminator. -/
def writeText (m : Memory) (p : Pointer) (text : Text) : Memory := m.writeAll p (terminated text)

/-- Writes the characters of a text behind the first `written` cells and then the terminator, and
counts the characters. -/
def storeTextFrom (p : Pointer) : Nat → Text → Memory → Nat × Memory
  | written, [], m => (written, m.write p written (.int 0))
  | written, c :: rest, m =>
    storeTextFrom p (written + 1) rest (m.write p written (.int (Text.toCode c)))

/-- Writes a text and its terminator character by character, and counts the characters. -/
def storeText (m : Memory) (p : Pointer) (text : Text) : Nat × Memory := storeTextFrom p 0 text m

/-- Copies cell after cell up to the end of the source text, within a number of steps: none if
that does not suffice.  A source that the copy itself extends has no end. -/
def copyTextWithin (target source : Pointer) : Nat → Nat → Memory → Option Memory
  | 0, _, _ => none
  | steps + 1, i, m =>
    let v := m.read source i
    if v.endsText then some (m.write target i (.int 0))
    else copyTextWithin target source steps (i + 1) (m.write target i v)

/-- Copies the text at `source` to `target`; none if the copy would never end.  A copy that ends
takes one step for each cell of the text and one for the terminator. -/
def copyText (m : Memory) (target source : Pointer) : Option Memory :=
  copyTextWithin target source ((m.textCells source).length + 1) 0 m

/-- Sets cells to an integer, one fewer than `count`; none if one fewer is no 64-bit integer. -/
def fill (m : Memory) (p : Pointer) (n count : Int64) : Option Memory :=
  if count = Int64.minValue then none
  else some (m.writeAll p (List.replicate (count - 1).toNatClampNeg (.int n)))

/-- Copies `count` cells as they were before the call, so overlaps do no harm. -/
def moveCells (m : Memory) (target source : Pointer) (count : Int64) : Memory :=
  m.writeAll target (m.readAll source count.toNatClampNeg)

theorem storeTextFrom_eq (p : Pointer) (written : Nat) (text : Text) (m : Memory) :
    storeTextFrom p written text m =
      (written + text.length, m.writeAll (p.add written) (terminated text)) := by
  induction text generalizing written m with
  | nil => rfl
  | cons c rest ih =>
      rw [storeTextFrom, ih, List.length_cons, Nat.add_assoc, Nat.add_comm 1]
      rfl

theorem storeText_eq (m : Memory) (p : Pointer) (text : Text) :
    m.storeText p text = (text.length, m.writeText p text) := by
  rw [storeText, storeTextFrom_eq, Nat.zero_add]
  rfl

end Memory

end CellMachine
