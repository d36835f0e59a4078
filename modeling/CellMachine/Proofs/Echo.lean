import CellMachine.Proofs.Entry
import CellMachine.Proofs.Overflow
import CellMachine.Proofs.Returning
import CellMachine.Sample.Echo
/-!
# What the echo program prints

The program is followed from the initializer that copies its banner to the end of its streams.  Its
memory only grows once main is entered, so the banner and the arguments stay where they are; what
changes is the standard output.  Main statement: for every command line the program returns zero and
has printed the banner, the count, each argument behind its number and the last one backwards.
-/

namespace CellMachine

/-! ## Fields -/

/-- Without flags a field is set to the right. -/
theorem Field.justify_right (f : Field) (width : Nat) :
    f.justify false false width = f.text.leftpad width ' ' := by
  unfold justify List.leftpad
  by_cases hfull : width - f.text.length = 0
  · simp only [hfull, if_true, List.replicate_zero, List.nil_append]
  · simp only [hfull, if_false, Bool.false_eq_true]

namespace Layout

theorem render_str (m : Memory) (text : Text) :
    render { conversion := .str } m (.str text) = text := by
  show Field.justify { body := text } false false 0 = text
  rw [Field.justify_right]
  simp [List.leftpad, Field.text]

theorem render_decimal (m : Memory) (width : Nat) {n : Nat} (h : n < 2 ^ 63) :
    render { width := width, precision := some 0, conversion := .decimal } m
      (.int (Int64.ofNat n)) = (Nat.toDigits 10 n).leftpad width ' ' := by
  have hn : (Int64.ofNat n).toInt = n := Int64.toInt_ofNat_of_lt h
  have hfield : (Field.ofInteger { width := width, precision := some 0, conversion := .decimal }
      (Int64.ofNat n).toInt).text = Nat.toDigits 10 n := by
    simp [hn, Field.ofInteger, Field.text, Field.sign, Flags.positiveSign, Numeral.atLeast,
      Numeral.digits]
  show Field.justify (Field.ofInteger _ (Int64.ofNat n).toInt) false false width = _
  rw [Field.justify_right, hfield]

end Layout

namespace Template

theorem checkedFormat_string (m : Memory) (text : Text) :
    checkedFormat m "%s\n".toList [.str text] = some (.ok (text ++ ['\n'])) := by
  have hparse : parse "%s\n".toList =
      [.directive { conversion := .str } "%s".toList, .literal ['\n']] := by decide +kernel
  have hplain : ∀ s ∈ parse "%s\n".toList, s.isGeneral = false := by
    rw [hparse]
    decide
  rw [checkedFormat_of_not_isGeneral hplain, format, hparse, expand_cons, expand_cons]
  show some (Except.ok (Layout.render { conversion := .str } m (.str text) ++ (['\n'] ++ []))) = _
  rw [Layout.render_str, List.append_nil]

theorem checkedFormat_count (m : Memory) {n : Nat} (h : n < 2 ^ 63) :
    checkedFormat m "argc=%d\n".toList [.int (Int64.ofNat n)] =
      some (.ok ("argc=".toList ++ Nat.toDigits 10 n ++ ['\n'])) := by
  have hparse : parse "argc=%d\n".toList =
      [.literal "argc=".toList, .directive { conversion := .decimal } "%d".toList,
        .literal ['\n']] := by decide +kernel
  have hplain : ∀ s ∈ parse "argc=%d\n".toList, s.isGeneral = false := by
    rw [hparse]
    decide
  rw [checkedFormat_of_not_isGeneral hplain, format, hparse, expand_cons, expand_cons, expand_cons]
  show some (Except.ok ("argc=".toList ++ (Layout.render
    { width := 0, precision := some 0, conversion := .decimal } m (.int (Int64.ofNat n)) ++
      (['\n'] ++ [])))) = _
  rw [Layout.render_decimal m 0 h, List.append_nil, List.append_assoc]
  simp [List.leftpad]

/-- The width is taken from the first argument, the number from the second. -/
theorem text_number (m : Memory) {n : Nat} (h : n < 2 ^ 63) (text : Text) :
    Segment.text m { values := [.int 2, .int (Int64.ofNat n), .str text] }
      (.directive { position := some 2, width := some (.position 1), conversion := .decimal }
        "%2$*1$d".toList) = .ok ((Nat.toDigits 10 n).leftpad 2 ' ') := by
  have hwidth : Directive.checkWidth "%2$*1$d".toList (Value.toDouble (.int 2)) =
      .ok (2, false) := by decide +kernel
  have hlayout : Directive.layout
      { position := some 2, width := some (.position 1), conversion := .decimal } "%2$*1$d".toList
      { width := some (Value.toDouble (.int 2)), precision := none
        value := .int (Int64.ofNat n) } =
      .ok { width := 2, precision := some 0, conversion := .decimal } := by
    simp only [Directive.layout, Option.elim_some, hwidth]
    rfl
  have hoperands : Directive.operands
      { position := some 2, width := some (.position 1), conversion := .decimal }
      { values := [.int 2, .int (Int64.ofNat n), .str text] } =
      { width := some (Value.toDouble (.int 2)), precision := none
        value := .int (Int64.ofNat n) } := by
    simp only [Directive.operands, Option.map_some, Option.map_none, Arguments.count,
      Arguments.pick, Arguments.skip, Arguments.atPosition, Arguments.get]
    rfl
  rw [Segment.text, hoperands, hlayout]
  exact congrArg Except.ok (Layout.render_decimal m 2 h)

theorem checkedFormat_numbered (m : Memory) {n : Nat} (h : n < 2 ^ 63) (text : Text) :
    checkedFormat m "%2$*1$d: %3$s\n".toList [.int 2, .int (Int64.ofNat n), .str text] =
      some (.ok ((Nat.toDigits 10 n).leftpad 2 ' ' ++ ": ".toList ++ text ++ ['\n'])) := by
  have hparse : parse "%2$*1$d: %3$s\n".toList =
      [.directive { position := some 2, width := some (.position 1), conversion := .decimal }
          "%2$*1$d".toList, .literal ": ".toList,
        .directive { position := some 3, conversion := .str } "%3$s".toList,
        .literal ['\n']] := by decide +kernel
  have hplain : ∀ s ∈ parse "%2$*1$d: %3$s\n".toList, s.isGeneral = false := by
    rw [hparse]
    decide
  rw [checkedFormat_of_not_isGeneral hplain, format, hparse, expand_cons, text_number m h,
    expand_cons, expand_cons, expand_cons]
  show some (Except.ok ((Nat.toDigits 10 n).leftpad 2 ' ' ++ (": ".toList ++
    (Layout.render { conversion := .str } m (.str text) ++ (['\n'] ++ []))))) = _
  rw [Layout.render_str, List.append_nil, List.append_assoc, List.append_assoc]

end Template

namespace Echo

open Session (Achieves)

/-! ## The text of a run -/

/-- The line of an argument. -/
def argumentLine (i : Nat) (text : Text) : Text :=
  (Nat.toDigits 10 i).leftpad 2 ' ' ++ ": ".toList ++ text.untilNull ++ ['\n']

/-- All that the program prints for a command line. -/
def transcript (args : List Text) : Text :=
  "clue echo\n".toList ++ ("argc=".toList ++ Nat.toDigits 10 args.length ++ ['\n']) ++
    args.zipIdx.flatMap (fun (text, i) => argumentLine i text) ++
    args.getLast?.elim [] fun last => last.untilNull.reverse ++ ['\n']

/-! ## The job as main goes on -/

/-- The banner and the arguments are in memory, and the text has been printed so far. -/
structure Ready (args : List Text) (entry : Entry) (banner : Pointer) (printed : Text)
    (job : Job Pointer) : Prop where
  own_eq : job.own = banner
  banner_spells : job.machine.memory.Spells banner "clue echo".toList
  argv_lt : entry.argv.block < job.machine.memory.blocks.size
  arguments : ∀ i text, args[i]? = some text → ∃ p, entry.argPointer job.machine.memory i = some p ∧
    p.offset = 0 ∧ job.machine.memory.Spells p text
  settled : job.machine.stdout.Settled
  stream_eq : job.machine.stdout.stream = printed
  stderr_eq : job.machine.stderr = {}

variable {args : List Text} {entry : Entry} {banner : Pointer} {printed : Text}

theorem Ready.keeps {job : Job Pointer} (h : Ready args entry banner printed job)
    {memory : Memory} (hkeeps : job.machine.memory.Keeps 0 memory) :
    Ready args entry banner printed
      { job with machine := { job.machine with memory := memory } } where
  own_eq := h.own_eq
  banner_spells := h.banner_spells.of_keeps hkeeps (Nat.zero_le _)
  argv_lt := Nat.lt_of_lt_of_le h.argv_lt hkeeps.size_le
  arguments i text htext := by
    obtain ⟨p, hp, hoffset, hspells⟩ := h.arguments i text htext
    refine ⟨p, ?_, hoffset, hspells.of_keeps hkeeps (Nat.zero_le _)⟩
    rw [Entry.argPointer_of_keeps hkeeps (Nat.zero_le _) h.argv_lt, hp]
  settled := h.settled
  stream_eq := h.stream_eq
  stderr_eq := h.stderr_eq

theorem Ready.prints {job : Job Pointer} (h : Ready args entry banner printed job)
    {stdout : LineBuffer} {text : Text} (hsettled : stdout.Settled)
    (hstream : stdout.stream = job.machine.stdout.stream ++ text) :
    Ready args entry banner (printed ++ text)
      { job with machine := { job.machine with stdout := stdout } } where
  own_eq := h.own_eq
  banner_spells := h.banner_spells
  argv_lt := h.argv_lt
  arguments := h.arguments
  settled := hsettled
  stream_eq := by rw [hstream, h.stream_eq]
  stderr_eq := h.stderr_eq

theorem achieves_literal (text : Text) :
    Achieves (Ready args entry banner printed) (Session.literal text) fun p job =>
      Ready args entry banner printed job ∧ p.offset = 0 ∧
        job.machine.memory.Spells p text := by
  refine ⟨fun job hjob => ?_⟩
  exact ⟨_, rfl, hjob.keeps (Memory.keeps_alloc 0 _ _), rfl, Memory.spells_allocText _ text⟩

theorem Ready.achieves_call_printf {job : Job Pointer} {template : Pointer} {source text : Text}
    {values : List Value} (hjob : Ready args entry banner printed job)
    (hoffset : template.offset = 0) (hspells : job.machine.memory.Spells template source)
    (hsource : source.untilNull = source)
    (hformat : Template.checkedFormat job.machine.memory source
      (Vararg.resolveAll job.machine.memory values) = some (.ok text)) :
    Achieves (· = job) (Session.call "printf".toList (template.toPair ++ values)) fun _ next =>
      Ready args entry banner (printed ++ text) next ∧
        next.machine.memory = job.machine.memory := by
  refine Session.achieves_call fun _ hsame now => ?_
  subst hsame
  rw [← hsource, ← hspells.textAt_eq] at hformat
  have hlt : template.offset < 2 ^ 63 := by omega
  exact ⟨_, _, Action.call_printf hlt hformat now,
    hjob.prints (hjob.settled.toSound.write text) (LineBuffer.stream_write _ text), rfl⟩

theorem achieves_printf {source text : Text} {values : List Value}
    (hsource : source.untilNull = source)
    (hformat : ∀ job, Ready args entry banner printed job →
      Template.checkedFormat job.machine.memory source
        (Vararg.resolveAll job.machine.memory values) = some (.ok text)) :
    Achieves (Ready args entry banner printed) (Session.printf source values) fun _ =>
      Ready args entry banner (printed ++ text) := by
  refine (achieves_literal source).bind fun p => Session.achieves_of_forall ?_
  intro job ⟨hjob, hoffset, hspells⟩
  have hcall := hjob.achieves_call_printf hoffset hspells hsource (hformat job hjob)
  exact hcall.mono (fun _ hsame => hsame) fun _ _ hnext => hnext.1

theorem achieves_putchar (c : Char) :
    Achieves (Ready args entry banner printed)
      (Session.call "putchar".toList [.int (Text.toCode c)]) fun _ =>
        Ready args entry banner (printed ++ [c]) := by
  refine Session.achieves_call fun job hjob now => ?_
  refine ⟨_, _, Action.call_putchar now _ _, hjob.prints ?_ ?_⟩
  · exact hjob.settled.putChar _
  · rw [LineBuffer.stream_putChar, Value.toInt64, Text.ofCode_toCode]

/-! ## Main -/

def lineTemplate : Text := "%2$*1$d: %3$s\n".toList

/-- The same as `Ready`, and the template of the arguments is in memory too. -/
def Lined (args : List Text) (entry : Entry) (banner line : Pointer) (printed : Text)
    (job : Job Pointer) : Prop :=
  Ready args entry banner printed job ∧ line.offset = 0 ∧
    job.machine.memory.Spells line lineTemplate

theorem achieves_printArgument {line : Pointer} {i : Nat} {text : Text} (hi : i < 2 ^ 63)
    (htext : args[i]? = some text) :
    Achieves (Lined args entry banner line printed) (printArgument entry line i) fun _ =>
      Lined args entry banner line (printed ++ argumentLine i text) := by
  refine Session.achieves_memory_bind fun job ⟨hjob, hline, hspells⟩ => ?_
  obtain ⟨p, hp, hoffset, harg⟩ := hjob.arguments i text htext
  have hresolve : Vararg.resolveAll job.machine.memory
      ([.int 2, .int (Int64.ofNat i)] ++ Pointer.pairOf (some p)) =
      [.int 2, .int (Int64.ofNat i), .str text.untilNull] := by
    obtain ⟨b, offset⟩ := p
    obtain rfl : offset = 0 := hoffset
    rw [← harg.textAt_eq]
    rfl
  have hformat : Template.checkedFormat job.machine.memory lineTemplate
      (Vararg.resolveAll job.machine.memory
        ([.int 2, .int (Int64.ofNat i)] ++ Pointer.pairOf (some p))) =
      some (.ok (argumentLine i text)) := by
    rw [hresolve]
    exact Template.checkedFormat_numbered _ hi _
  simp only [hp, List.append_assoc]
  refine (hjob.achieves_call_printf hline hspells rfl hformat).bind fun _ => ?_
  refine Session.achieves_pure fun next ⟨hnext, hmemory⟩ => ⟨hnext, hline, ?_⟩
  rw [hmemory]
  exact hspells

theorem zipIdx_eq_map_range (args : List Text) :
    args.zipIdx = (List.range args.length).map fun i => (args[i]?.getD [], i) := by
  apply List.ext_getElem
  · simp
  · intro i hi _
    have hlt : i < args.length := by simpa using hi
    simp [hlt]

theorem achieves_printArguments {line : Pointer} (hargc : entry.argc = args.length)
    (hcount : args.length < 2 ^ 63) :
    Achieves (Lined args entry banner line printed)
      (forIn (List.range entry.argc) PUnit.unit fun i _ => do
        printArgument entry line i
        pure (ForInStep.yield PUnit.unit)) fun _ =>
        Lined args entry banner line
          (printed ++ args.zipIdx.flatMap fun (text, i) => argumentLine i text) := by
  rw [hargc, zipIdx_eq_map_range, List.flatMap_map]
  refine Session.achieves_forIn _ (fun i hi printed => ?_) printed
  have hlt : i < args.length := List.mem_range.mp hi
  have htext := List.getElem?_eq_getElem hlt
  rw [htext]
  exact achieves_printArgument (hlt.trans hcount) htext

/-- The characters of a text by their places, from the last one on. -/
theorem flatMap_reverse_range (text : Text) :
    (List.range text.length).reverse.flatMap (fun i => text[i]?.toList) = text.reverse := by
  induction text with
  | nil => rfl
  | cons c text ih =>
      rw [List.length_cons, List.range_succ_eq_map, List.reverse_cons, List.flatMap_append,
        ← List.map_reverse, List.flatMap_map, List.reverse_cons, ← ih]
      rfl

theorem achieves_printReversed {p : Pointer} {text : Text} :
    Achieves
      (fun job => Ready args entry banner printed job ∧ job.machine.memory.Spells p text)
      (printReversed p) fun _ =>
        Ready args entry banner (printed ++ (text.untilNull.reverse ++ ['\n'])) := by
  refine Session.achieves_memory_bind fun job ⟨hjob, hspells⟩ => ?_
  -- The cells are those of the memory in front of the loop, whatever the loop leaves.
  have hround : ∀ i ∈ (List.range (job.machine.memory.textAt p).length).reverse, ∀ printed,
      Achieves (Ready args entry banner printed)
        (Session.call "putchar".toList [job.machine.memory.read p i]) fun _ =>
          Ready args entry banner (printed ++ (job.machine.memory.textAt p)[i]?.toList) := by
    intro i hi printed
    have hlt : i < (job.machine.memory.textAt p).length := by simpa using hi
    have hchar := List.getElem?_eq_getElem hlt
    rw [hspells.read_eq hchar, hchar]
    exact achieves_putchar _
  have hloop := Session.achieves_forIn (I := Ready args entry banner) _ hround printed
  rw [flatMap_reverse_range] at hloop
  rw [← hspells.textAt_eq, ← List.append_assoc]
  refine (hloop.of_job hjob).bind fun _ => ?_
  exact (achieves_putchar '\n').bind fun _ => Session.achieves_pure fun _ hlast => hlast

/-- What main does behind its loop. -/
def printLast (entry : Entry) : Session Pointer Int64 :=
  if 0 < entry.argc then do
    match entry.argPointer (← Session.memory) (entry.argc - 1) with
    | some last =>
      printReversed last
      return 0
    | none => return 0
  else return 0

theorem achieves_printLast (hargc : entry.argc = args.length) :
    Achieves (Ready args entry banner printed) (printLast entry) fun code job =>
      code = 0 ∧ Ready args entry banner
        (printed ++ args.getLast?.elim [] fun last => last.untilNull.reverse ++ ['\n']) job := by
  unfold printLast
  rw [hargc]
  cases hlast : args.getLast? with
  | none =>
      obtain rfl := List.getLast?_eq_none_iff.mp hlast
      exact Session.achieves_pure fun _ hjob => ⟨rfl, by rwa [Option.elim_none, List.append_nil]⟩
  | some last =>
      rw [List.getLast?_eq_getElem?] at hlast
      have hpos : 0 < args.length := by
        have hlt := (List.getElem?_eq_some_iff.mp hlast).1
        omega
      rw [if_pos hpos]
      refine Session.achieves_memory_bind fun job hjob => ?_
      obtain ⟨p, hp, -, hspells⟩ := hjob.arguments _ last hlast
      simp only [hp]
      refine (achieves_printReversed.of_job ⟨hjob, hspells⟩).bind fun _ => ?_
      exact Session.achieves_pure fun _ hready => ⟨rfl, hready⟩

theorem achieves_printBanner (hoffset : banner.offset = 0) :
    Achieves (Ready args entry banner []) (Session.printf "%s\n".toList banner.toPair)
      fun _ => Ready args entry banner "clue echo\n".toList := by
  have hline : ([] : Text) ++ ("clue echo".toList ++ ['\n']) = "clue echo\n".toList := by decide
  rw [← hline]
  refine achieves_printf rfl fun job hjob => ?_
  have hresolve : Vararg.resolveAll job.machine.memory banner.toPair =
      [.str "clue echo".toList] := by
    have htext := hjob.banner_spells.textAt_eq
    obtain ⟨b, offset⟩ := banner
    obtain rfl : offset = 0 := hoffset
    show [Value.str (job.machine.memory.textAt { block := b })] = _
    rw [htext]
    rfl
  rw [hresolve]
  exact Template.checkedFormat_string _ _

theorem achieves_printCount (hargc : entry.argc = args.length) (hcount : args.length < 2 ^ 63) :
    Achieves (Ready args entry banner printed)
      (Session.printf "argc=%d\n".toList [.int (Int64.ofNat entry.argc)]) fun _ =>
        Ready args entry banner
          (printed ++ ("argc=".toList ++ Nat.toDigits 10 args.length ++ ['\n'])) := by
  refine achieves_printf rfl fun job _ => ?_
  rw [hargc]
  exact Template.checkedFormat_count _ hcount

theorem achieves_main (hoffset : banner.offset = 0) (hargc : entry.argc = args.length)
    (hcount : args.length < 2 ^ 63) :
    Achieves (Ready args entry banner []) (main entry) fun code job =>
      code = 0 ∧ Ready args entry banner (transcript args) job := by
  refine Session.achieves_get_bind fun job hjob => ?_
  obtain rfl := hjob.own_eq
  refine ((achieves_printBanner hoffset).of_job hjob).bind fun _ => ?_
  refine (achieves_printCount hargc hcount).bind fun _ => ?_
  refine (achieves_literal lineTemplate).bind fun line => ?_
  refine (achieves_printArguments hargc hcount).bind fun _ => ?_
  exact (achieves_printLast hargc).mono (fun _ hlined => hlined.1) fun _ _ hlast => hlast

/-! ## The launch -/

/-- The memory behind the initializer: the banner's text is in a block of its own, and copied. -/
def fill (banner : Pointer) (m : Memory) : Memory :=
  (m.allocText "clue echo".toList).2.writeText banner "clue echo".toList

theorem fillBanner_apply {m : Memory} (h : banner.block < m.blocks.size) :
    fillBanner (m, banner) = .done ((), (fill banner m, banner)) := by
  have hspells := m.spells_allocText "clue echo".toList
  have hcells : (m.allocText "clue echo".toList).2.textCells (m.allocText "clue echo".toList).1 ++
      [.int 0] = Memory.terminated "clue echo".toList := by
    rw [(Memory.holdsText_of_readAll hspells.readAll_eq).textCells_eq]
    rfl
  have hcopy : (m.allocText "clue echo".toList).2.copyText banner
      (m.allocText "clue echo".toList).1 = some (fill banner m) := by
    rw [Memory.copyText_eq, if_neg fun hover => absurd hover.1 (Nat.ne_of_lt h), hcells]
    rfl
  show (Timed.ofOption ((m.allocText "clue echo".toList).2.copyText banner
    (m.allocText "clue echo".toList).1)).bind _ = _
  rw [hcopy]
  rfl

theorem keeps_fill {m : Memory} {start : Nat} (h : banner.block < start) :
    m.Keeps start (fill banner m) := by
  have halloc := m.keeps_alloc start (Memory.terminated "clue echo".toList).toArray
  exact halloc.trans (Memory.keeps_writeAll _ _ h)

theorem spells_fill {m : Memory} (h : banner.block < m.blocks.size) :
    (fill banner m).Spells banner "clue echo".toList := by
  have hlt : banner.block < (m.allocText "clue echo".toList).2.blocks.size :=
    Nat.lt_of_lt_of_le h (m.keeps_alloc 0 _).size_le
  refine ⟨?_, Memory.readAll_writeText _ hlt⟩
  rw [fill, Memory.writeText, Memory.size_blocks_writeAll]
  exact hlt

def loaded : Memory := (program.load (Machine.boot {}).memory).2

-- The block behind those of the three streams.
def global : Pointer := { block := 3 }

/-- The job that main is entered with. -/
def entered (config : Config) (args : List Text) : Job Pointer where
  machine :=
    { Machine.boot config with
      memory := fill global (Entry.pack loaded args config.stackCells).2 }
  own := global

theorem global_lt (config : Config) (args : List Text) :
    global.block < (Entry.pack loaded args config.stackCells).2.blocks.size := by
  have hloaded : global.block < loaded.blocks.size := by decide
  rw [Entry.size_blocks_pack]
  exact Nat.lt_of_lt_of_le hloaded (by omega)

theorem ready_entered (config : Config) (args : List Text) :
    Ready args (Entry.pack loaded args config.stackCells).1 global [] (entered config args) := by
  have hkeeps : (Entry.pack loaded args config.stackCells).2.Keeps loaded.blocks.size
      (entered config args).machine.memory := keeps_fill (by decide)
  have hargv : (Entry.pack loaded args config.stackCells).1.argv.block =
      loaded.blocks.size + args.length := by
    rw [Entry.pack_eq]
  have hlt : (Entry.pack loaded args config.stackCells).1.argv.block <
      (Entry.pack loaded args config.stackCells).2.blocks.size := by
    rw [hargv, Entry.size_blocks_pack]
    exact Nat.lt_add_of_pos_right (by decide)
  refine ⟨rfl, spells_fill (global_lt config args), Nat.lt_of_lt_of_le hlt hkeeps.size_le, ?_,
    LineBuffer.settled_empty, rfl, rfl⟩
  intro i text htext
  refine ⟨{ block := loaded.blocks.size + i }, ?_, rfl, ?_⟩
  · rw [Entry.argPointer_of_keeps hkeeps (hargv ▸ Nat.le_add_right _ _) hlt, Entry.argPointer_pack,
      if_pos (List.getElem?_eq_some_iff.mp htext).1]
  · exact (Entry.spells_pack loaded args _ htext).of_keeps hkeeps (Nat.le_add_right _ _)

theorem launch_eq_main (config : Config) (args : List Text) :
    program.launch (Machine.boot config) args =
      Session.thenShutdown (main (Entry.pack loaded args config.stackCells).1)
        (entered config args) := by
  have hregister : program.register.run.run {} (program.load (Machine.boot config).memory).swap =
      .done ((.ok (), { pending := [fillBanner] }), (loaded, global)) := rfl
  have hrun : Registry.runAll.run.run { pending := [fillBanner] }
      ((Entry.pack loaded args config.stackCells).2, global) =
      .done ((.ok 1, { pending := [], drained := true }),
        (fill global (Entry.pack loaded args config.stackCells).2, global)) := by
    rw [Registry.run_runAll, if_neg Bool.false_ne_true, List.forM_cons, List.forM_nil, bind_assoc]
    show (fillBanner ((Entry.pack loaded args config.stackCells).2, global)).bind _ = _
    rw [fillBanner_apply (global_lt config args)]
    rfl
  rw [Program.launch_eq, hregister]
  simp only [Timed.bind, Machine.boot, hrun]
  rfl

/-! ## The end of the streams -/

theorem exists_transcript_eq (args : List Text) : ∃ front, transcript args = front ++ ['\n'] := by
  unfold transcript
  cases hlast : args.getLast? with
  | none =>
      obtain rfl := List.getLast?_eq_none_iff.mp hlast
      exact ⟨"clue echo\nargc=0".toList, rfl⟩
  | some last => exact ⟨_, (List.append_assoc _ _ _).symm⟩

/-- For every command line, under every configuration and whatever the clock shows, the program
returns zero.  Its standard output is the transcript and ends with its last line; nothing was
written to the standard error.  The arguments are counted in 64 bits. -/
theorem launch_prints_transcript (config : Config) (args : List Text)
    (hcount : args.length < 2 ^ 63) (readings : Nat → Instant) :
    ∃ job, (program.launch (Machine.boot config) args).run readings = some (.ok 0, job) ∧
      job.machine.stdout.lines.flatMap (· ++ ['\n']) = transcript args ∧
      job.machine.stdout.pending = [] ∧
      job.machine.stderr.lines = [] ∧ job.machine.stderr.pending = [] := by
  have hoffset : global.offset = 0 := rfl
  have hargc : (Entry.pack loaded args config.stackCells).1.argc = args.length := by
    rw [Entry.pack_eq]
  have hmain := (achieves_main hoffset hargc hcount).thenShutdown
  obtain ⟨code, _, hrun, job, ⟨rfl, hjob⟩, rfl⟩ :=
    hmain.exists_run (ready_entered config args) readings
  -- The transcript ends a line, so the end of the streams has nothing to do.
  obtain ⟨front, hfront⟩ := exists_transcript_eq args
  have hpending := hjob.settled.pending_eq_nil (hjob.stream_eq.trans hfront)
  have hstdout : job.machine.shutdown.stdout = job.machine.stdout :=
    @Machine.buffer_shutdown_eq job.machine .stdout hjob.settled hpending
  have hempty : job.machine.buffer .stderr = {} := hjob.stderr_eq
  have hstderr : job.machine.shutdown.buffer .stderr = {} := by
    rw [Machine.buffer_shutdown_eq (hempty ▸ LineBuffer.settled_empty) (by rw [hempty]), hempty]
  refine ⟨_, launch_eq_main config args ▸ hrun, ?_, ?_, congrArg LineBuffer.lines hstderr,
    congrArg LineBuffer.pending hstderr⟩
  · show job.machine.shutdown.stdout.lines.flatMap _ = _
    rw [hstdout, ← hjob.stream_eq, LineBuffer.stream, hpending, List.append_nil]
  · show job.machine.shutdown.stdout.pending = []
    rw [hstdout, hpending]

/-- The arguments hold a percent sign, a null character, a newline and a character beyond the first
plane. -/
theorem launch_prints_transcript_odd :
    let args : List Text := [['e'], ['%', 'd', '\x00', 'z'], ['x', '\n', '😀']]
    args.length < 2 ^ 63 ∧ ∃ job,
      (program.launch (Machine.boot { flushPartialLine := false }) args).run
        (fun n => { seconds := n, microseconds := 0 }) = some (.ok 0, job) ∧
      job.machine.stdout.lines.flatMap (· ++ ['\n']) =
        "clue echo\nargc=3\n 0: e\n 1: %d\n 2: x\n😀\n😀\nx\n".toList ∧
      job.machine.stdout.pending = [] ∧
      job.machine.stderr.lines = [] ∧ job.machine.stderr.pending = [] := by
  intro args
  have hcount : args.length < 2 ^ 63 := by decide
  have htranscript : transcript args =
      "clue echo\nargc=3\n 0: e\n 1: %d\n 2: x\n😀\n😀\nx\n".toList := by decide +kernel
  refine ⟨hcount, ?_⟩
  rw [← htranscript]
  exact launch_prints_transcript { flushPartialLine := false } args hcount _

end Echo

end CellMachine
