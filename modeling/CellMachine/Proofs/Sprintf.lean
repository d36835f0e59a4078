import CellMachine.Proofs.Frame
import CellMachine.Proofs.Texts
/-!
# Printing into memory

`sprintf` expands its template as `printf` does and writes the text into memory where the other
writes it to a stream.  The target may lie in the template or in the texts that are printed, but
nothing is read behind the first write.  Main statement: both functions return the same from the
same machine, and what is stored is the text that would have been printed.
-/

namespace CellMachine

/-- The machine `m'` is `m` with a text and its terminator put into the cells from `target` on.  The
text is read back from there up to its first null character. -/
structure Machine.Stores (target : Pointer) (text : Text) (m m' : Machine) : Prop where
  machine_eq : m' = { m with memory := m'.memory }
  framed : Memory.Framed (some ⟨target, text.length + 1⟩) m.memory m'.memory
  readAll_eq : m'.memory.readAll target (text.length + 1) =
    text.map (fun c => .int (Text.toCode c)) ++ [.int 0]
  textAt_eq : m'.memory.textAt target = text.untilNull

theorem Machine.stores_writeText {target : Pointer} {m : Machine} (text : Text)
    (h : target.block < m.memory.blocks.size) :
    m.Stores target text { m with memory := m.memory.writeText target text } where
  machine_eq := rfl
  framed := Memory.framed_writeText m.memory target text
  readAll_eq := Memory.readAll_writeText text h
  textAt_eq := Memory.textAt_of_readAll (Memory.readAll_writeText text h)

namespace Action

/-- From the same machine, `printf` and `sprintf` have no result if their template overflows, and
otherwise return the same count or the same fault.  A fault changes nothing.  If there is a count,
there is one text, expanded from the memory before the call, which the first adds to the standard
output and the second stores at its target, whatever the target overlaps. -/
theorem sprintf_agrees_with_printf (target template : Pointer) (values : List Value) (m : Machine)
    (h : target.block < m.memory.blocks.size) :
    let rendered : Option (Except FormatError Text) := Template.checkedFormat m.memory
      (m.memory.textAt template) (Vararg.resolveAll m.memory values)
    (rendered = none →
      printf template values m = none ∧ sprintf target template values m = none) ∧
    (rendered ≠ none → ∃ (result : Except Fault Int64) (printed stored : Machine),
      printf template values m = some (result, printed) ∧
      sprintf target template values m = some (result, stored) ∧
      (∀ fault, result = .error fault → printed = m ∧ stored = m) ∧
      ∀ n, result = .ok n → ∃ text : Text,
        rendered = some (.ok text) ∧
        n = Int64.ofNat text.length ∧
        printed = { m with stdout := printed.stdout } ∧
        printed.stdout.stream = m.stdout.stream ++ text ∧
        m.Stores target text stored) := by
  rw [printf_apply, sprintf_apply]
  rcases Template.checkedFormat m.memory (m.memory.textAt template)
    (Vararg.resolveAll m.memory values) with _ | e | text
  · exact ⟨fun _ => ⟨rfl, rfl⟩, fun hsome => absurd rfl hsome⟩
  · exact ⟨nofun, fun _ => ⟨_, _, _, rfl, rfl, fun _ _ => ⟨rfl, rfl⟩, nofun⟩⟩
  · refine ⟨nofun, fun _ => ⟨_, _, _, rfl, rfl, nofun, ?_⟩⟩
    intro n hn
    have hcount : Int64.ofNat text.length = n := Except.ok.inj hn
    exact ⟨text, rfl, hcount.symm, rfl, LineBuffer.stream_write m.stdout text,
      Machine.stores_writeText text h⟩

/-- The template, its argument and the target are in one block: `%s%cx` is overwritten behind its
first character, while the argument is its last one.  The text holds a null character. -/
theorem sprintf_agrees_with_printf_overlapping :
    let run : List Value := Memory.terminated ['%', 's', '%', 'c', 'x']
    let m : Machine := { memory := { blocks := #[run.toArray] } }
    let target : Pointer := { block := 0, offset := 1 }
    let values : List Value := [.int 4, .block 0, .int 0]
    let text : Text := ['x', '\x00', 'x']
    target.block < m.memory.blocks.size ∧ ∃ printed stored,
      printf { block := 0 } values m = some (.ok 3, printed) ∧
      printed.stdout.stream = text ∧
      sprintf target { block := 0 } values m = some (.ok 3, stored) ∧
      stored.memory.cells 0 = #[.int 37, .int 120, .int 0, .int 120, .int 0, .int 0] ∧
      m.Stores target text stored ∧ stored.memory.textAt target = ['x'] := by
  intro run m target values text
  have hformat : Template.checkedFormat m.memory (m.memory.textAt { block := 0 })
      (Vararg.resolveAll m.memory values) = some (.ok text) := by decide +kernel
  have htarget : target.block < m.memory.blocks.size := by decide
  obtain ⟨result, printed, stored, hprintf, hsprintf, -, hreturns⟩ :=
    (sprintf_agrees_with_printf target { block := 0 } values m htarget).2 (by simp [hformat])
  have hresult : result = .ok 3 ∧ stored.memory.cells 0 = #[.int 37, .int 120, .int 0, .int 120,
      .int 0, .int 0] := by
    rw [sprintf_apply, hformat] at hsprintf
    obtain ⟨rfl, rfl⟩ := Prod.mk.inj (Option.some.inj hsprintf)
    exact ⟨rfl, by decide +kernel⟩
  obtain ⟨rfl, hcells⟩ := hresult
  obtain ⟨text', hformat', -, -, hstream, hstores⟩ := hreturns 3 rfl
  obtain rfl : text = text' := Except.ok.inj (Option.some.inj (hformat.symm.trans hformat'))
  exact ⟨htarget, printed, stored, hprintf, hstream, hsprintf, hcells, hstores,
    hstores.textAt_eq.trans (by decide)⟩

end Action

end CellMachine
