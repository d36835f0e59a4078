import CellMachine.Proofs.Copy
import CellMachine.Proofs.Overflow
import CellMachine.Proofs.Request
import CellMachine.Proofs.Varargs
import Mathlib.Data.List.Basic
/-!
# When calls fail

What a call by name ends with can be told from its name, from the shape of its flat list and from
the text of its template.  `Refuses` gives the faults as rules, one for each check, and `Stops` the
calls without a result; `Reading` is the list read by functions that have no result beyond its end.
Main statement: a call fails as the rules say and not otherwise, and a call that no rule refuses
returns the registers of its function, unless it stops.
-/

namespace CellMachine

namespace Symbol

/-- Where the pointer to the template stands, in functions that have one. -/
def template? : Symbol → Option Nat
  | .printf => some 0
  | .sprintf => some 2
  | _ => none

/-- What the result registers of a function hold: a pointer, nothing, or one value. -/
def HasRegisters (regs : List Value) : Symbol → Prop
  | .malloc | .calloc | .realloc | .strcpy | .memset | .memcpy => ∃ p, regs = Pointer.pairOf p
  | .free => regs = []
  | _ => ∃ v, regs = [v]

/-- The template of a function cannot be expanded with the rest of the list as its arguments. -/
def Misformats (s : Symbol) (m : Memory) (args : List Value) (e : FormatError) : Prop :=
  ∃ i p, s.template? = some i ∧ Action.pointer? args i = some p ∧
    Template.checkedFormat m (m.textAt p) (Vararg.resolveAll m (args.drop (i + 2))) =
      some (.error e)

/-- A call that no rule refuses and that has no result: a text is copied to a place behind its first
cell and not beyond its terminator, a count has no predecessor, or a template overflows. -/
inductive Stops (m : Memory) (args : List Value) : Symbol → Prop
  | copied {target source : Pointer} : Action.pointer? args 0 = some target →
      Action.pointer? args 2 = some source →
      target.Overtakes source (m.textCells source).length → Stops m args .strcpy
  | filled : Action.integer args 3 = Int64.minValue → Stops m args .memset
  | formatted {s : Symbol} {i : Nat} {p : Pointer} : s.template? = some i →
      Action.pointer? args i = some p →
      Template.checkedFormat m (m.textAt p) (Vararg.resolveAll m (args.drop (i + 2))) = none →
      Stops m args s

theorem followed_lt_arity (s : Symbol) {i : Nat} (h : i ∈ s.followed) : i + 1 < s.arity := by
  cases s <;> simp [followed, arity] at h ⊢ <;> omega

theorem template?_lt_arity (s : Symbol) {i : Nat} (h : s.template? = some i) :
    i + 1 < s.arity := by
  cases s <;> simp [template?, arity] at h ⊢ <;> omega

theorem ofName?_eq_some_iff {name : Text} {s : Symbol} :
    ofName? name = some s ↔ s.name.toList = name := by
  constructor
  · intro h
    have hname := List.find?_some h
    exact beq_iff_eq.mp hname
  · rintro rfl
    cases s <;> rfl

theorem ofName?_eq_none_iff {name : Text} :
    ofName? name = none ↔ ∀ s : Symbol, s.name.toList ≠ name := by
  simp only [Option.eq_none_iff_forall_ne_some, ne_eq, ofName?_eq_some_iff]

end Symbol

namespace Request

open CellMachine.Action (pointer? integer number argument)

/-! ## Reading the flat list -/

theorem pointer?_eq_none_iff {args : List Value} {i : Nat} :
    pointer? args i = none ↔ ∀ b, args[i + 1]? ≠ some (.block b) := by
  unfold pointer? argument Pointer.ofPair
  cases h : args[i + 1]? with
  | none => simp [Value.block?]
  | some v => cases v <;> simp [Value.block?]

theorem follow_bind_eq_ok {β : Type} {s : Symbol} {args : List Value} {i : Nat}
    {f : Pointer → Except Fault β} {b : β} (h : follow s args i >>= f = .ok b) :
    ∃ p, pointer? args i = some p ∧ f p = .ok b := by
  unfold follow at h
  cases hp : pointer? args i with
  | none =>
      rw [hp] at h
      cases h
  | some p =>
      rw [hp] at h
      exact ⟨p, rfl, h⟩

/-! ## Reading within bounds -/

/-- A reading of the flat list that has no result when it reaches beyond its end. -/
abbrev Reading := ExceptT Fault Option

namespace Reading

def value (args : List Value) (i : Nat) : Reading Value := .mk (args[i]?.map .ok)

/-- A pointer at an index.  Its second half may be missing and is undefined then. -/
def nullable (args : List Value) (i : Nat) : Reading (Option Pointer) := do
  return Pointer.ofPair (← value args i) (args[i + 1]?.getD .undefined)

def pointer (s : Symbol) (args : List Value) (i : Nat) : Reading Pointer := do
  match ← nullable args i with
  | some p => return p
  | none => throw (.nullPointer s)

def int (args : List Value) (i : Nat) : Reading Int64 := return (← value args i).toInt64

def double (args : List Value) (i : Nat) : Reading Double := return (← value args i).toDouble

/-- Reads a request as each function does, with what it only looks at. -/
def flat (now : Instant) (s : Symbol) (args : List Value) : Reading Request := do
  match s with
  | .printf => return .printf (← pointer s args 0) (args.drop 2)
  | .sprintf =>
    let target ← pointer s args 0
    return .sprintf target (← pointer s args 2) (args.drop 4)
  | .putc =>
    let file ← nullable args 1
    return .putc (← int args 0) file
  | .putchar => return .putchar (← int args 0)
  | .malloc =>
    let _ ← int args 0
    return .malloc
  | .calloc => return .calloc (← int args 0) (← int args 1)
  | .realloc =>
    let p ← nullable args 0
    let _ ← int args 2
    return .realloc p
  | .free => return .free (← nullable args 0)
  | .atoi => return .atoi (← pointer s args 0)
  | .atol => return .atol (← pointer s args 0)
  | .strcpy =>
    let target ← pointer s args 0
    return .strcpy target (← pointer s args 2)
  | .memset =>
    let target ← pointer s args 0
    return .memset target (← int args 2) (← int args 3)
  | .memcpy =>
    let target ← pointer s args 0
    return .memcpy target (← pointer s args 2) (← int args 4)
  | .gettimeofday =>
    let target ← pointer s args 0
    if 3 ≤ args.length then
      let _ ← nullable args 2
    return .gettimeofday now target
  | .sin => return .compute (Action.onFloat Float.sin (← double args 0))
  | .cos => return .compute (Action.onFloat Float.cos (← double args 0))
  | .tan => return .compute (Action.onFloat Float.tan (← double args 0))
  | .atan => return .compute (Action.onFloat Float.atan (← double args 0))
  | .log => return .compute (Action.onFloat Float.log (← double args 0))
  | .exp => return .compute (Action.onFloat Float.exp (← double args 0))
  | .sqrt => return .compute (Action.onFloat Float.sqrt (← double args 0))
  | .pow => return .compute (Action.power (← double args 0) (← double args 1))

theorem value_eq {args : List Value} {i : Nat} (h : i < args.length) :
    value args i = pure (argument args i) := by
  unfold value argument
  rw [List.getElem?_eq_getElem h]
  rfl

theorem nullable_eq {args : List Value} {i : Nat} (h : i < args.length) :
    nullable args i = pure (pointer? args i) := by
  rw [nullable, value_eq h, pure_bind]
  rfl

theorem pointer_eq {s : Symbol} {args : List Value} {i : Nat} (h : i < args.length) :
    pointer s args i = .mk (some (follow s args i)) := by
  rw [pointer, nullable_eq h, pure_bind, follow]
  cases pointer? args i <;> rfl

theorem int_eq {args : List Value} {i : Nat} (h : i < args.length) :
    int args i = pure (integer args i) := by
  rw [int, value_eq h, pure_bind]
  rfl

theorem double_eq {args : List Value} {i : Nat} (h : i < args.length) :
    double args i = pure (number args i) := by
  rw [double, value_eq h, pure_bind]
  rfl

/-- A list that is long enough for its function is never read beyond its end. -/
theorem run_flat {now : Instant} {s : Symbol} {args : List Value} (h : s.arity ≤ args.length) :
    (flat now s args).run = some (ofFlat now s args) := by
  cases s with
  | printf | atoi | atol | memset =>
      simp only [Symbol.arity] at h
      simp (disch := omega) only [flat, pointer_eq, int_eq, ofFlat, follow]
      cases pointer? args 0 <;> rfl
  | sprintf | strcpy | memcpy =>
      simp only [Symbol.arity] at h
      simp (disch := omega) only [flat, pointer_eq, int_eq, ofFlat, follow]
      cases pointer? args 0 with
      | none => rfl
      | some target => cases pointer? args 2 <;> rfl
  | gettimeofday =>
      -- The time zone is looked at only in a list that has one.
      simp only [Symbol.arity] at h
      by_cases hzone : 3 ≤ args.length
      · simp (disch := omega) only [flat, if_pos hzone, pointer_eq, nullable_eq, ofFlat, follow]
        cases pointer? args 0 <;> rfl
      · simp (disch := omega) only [flat, if_neg hzone, pointer_eq, ofFlat, follow]
        cases pointer? args 0 <;> rfl
  | _ =>
      simp only [Symbol.arity] at h
      simp (disch := omega) only [flat, nullable_eq, int_eq, double_eq]
      rfl

/-- Reads a call by name: the name first, then the number of values. -/
def call (now : Instant) (name : Text) (args : List Value) : Reading Request :=
  match Symbol.ofName? name with
  | none => throw (.unknownSymbol name)
  | some s =>
    if args.length < s.arity then throw (.argumentCount s args.length)
    else flat now s args

theorem run_call (now : Instant) (name : Text) (args : List Value) :
    (call now name args).run = some (ofCall now name args) := by
  unfold call ofCall
  cases Symbol.ofName? name with
  | none => rfl
  | some s =>
      by_cases hcount : args.length < s.arity
      · simp only [if_pos hcount]
        rfl
      · simp only [if_neg hcount]
        exact run_flat (Nat.le_of_not_lt hcount)

end Reading

/-! ## Faults -/

/-- The action ends in a fault. -/
def FailsWith (action : Action (List Value)) (m : Machine) (fault : Fault) : Prop :=
  ∃ m', action m = some (.error fault, m')

/-- The fault that a call by name is refused with.  A rule applies only where those before it do
not. -/
inductive Refuses (m : Memory) (name : Text) (args : List Value) : Fault → Prop
  | unknownSymbol : (∀ s : Symbol, s.name.toList ≠ name) → Refuses m name args (.unknownSymbol name)
  | argumentCount {s : Symbol} : s.name.toList = name → args.length < s.arity →
      Refuses m name args (.argumentCount s args.length)
  | nullPointer {s : Symbol} {i : Nat} : s.name.toList = name → s.arity ≤ args.length →
      i ∈ s.followed → (∀ b, args[i + 1]? ≠ some (.block b)) → Refuses m name args (.nullPointer s)
  | format {s : Symbol} {e : FormatError} : s.name.toList = name → s.arity ≤ args.length →
      (∀ i ∈ s.followed, ∃ b, args[i + 1]? = some (.block b)) → s.Misformats m args e →
      Refuses m name args (.format e)

theorem Returns.rendered_eq_ok {m m' : Machine} {r : Request} {regs : List Value}
    (h : Returns m r regs m') : ∃ text, r.rendered m.memory = some (.ok text) := by
  cases h with
  | printf hformat | printfTagged hformat | sprintf hformat => exact ⟨_, hformat⟩
  | _ => exact ⟨[], rfl⟩

/-- The request has no result: its template overflows, a text is copied onto itself, or a count has
no predecessor. -/
def Stops (m : Memory) (r : Request) : Prop :=
  match r with
  | .printf _ _ | .printfTagged _ _ | .sprintf _ _ _ => r.rendered m = none
  | .strcpy target source => target.Overtakes source (m.textCells source).length
  | .memset _ _ count => count = Int64.minValue
  | _ => False

theorem perform_eq_none_iff {r : Request} {m : Machine} :
    r.perform m = none ↔ r.Stops m.memory := by
  cases r with
  | printf template values =>
      simp only [perform, Action.bind_apply, Action.printf_apply, Stops, rendered]
      rcases Template.checkedFormat m.memory (m.memory.textAt template)
        (Vararg.resolveAll m.memory values) with _ | _ | _ <;> simp
  | printfTagged template args =>
      simp only [perform, Action.bind_apply, Action.printfTagged_apply, Stops, rendered]
      rcases Template.checkedFormat m.memory (m.memory.textAt template)
        (args.map (Vararg.resolve m.memory)) with _ | _ | _ <;> simp
  | sprintf target template values =>
      simp only [perform, Action.bind_apply, Action.sprintf_apply, Stops, rendered]
      rcases Template.checkedFormat m.memory (m.memory.textAt template)
        (Vararg.resolveAll m.memory values) with _ | _ | _ <;> simp
  | putc code file =>
      simp only [perform, Action.putc, Action.bind_apply, Stops]
      rcases file.bind Stream.ofPointer? with _ | _ | _ | _ <;> simp [Action.bind_apply]
  | strcpy target source =>
      simp only [perform, Action.strcpy, Action.bind_apply, Action.updateMemory,
        Memory.copyText_eq, Stops]
      by_cases h : target.Overtakes source (m.memory.textCells source).length <;> simp [h]
  | memset target n count =>
      simp only [perform, Action.memset, Action.bind_apply, Action.updateMemory, Memory.fill, Stops]
      by_cases h : count = Int64.minValue <;> simp [h]
  | _ => constructor <;> intro h <;> cases h

theorem failsWith_perform_iff {r : Request} {m : Machine} {fault : Fault} :
    FailsWith r.perform m fault ↔
      ∃ e, r.rendered m.memory = some (.error e) ∧ fault = .format e := by
  have hends := r.ends_perform m
  constructor
  · rintro ⟨m', h⟩
    rw [h] at hends
    cases hends with
    | fails hrendered => exact ⟨_, hrendered, rfl⟩
  · rintro ⟨e, hrendered, rfl⟩
    cases hperform : r.perform m with
    | none =>
        have hstops := perform_eq_none_iff.mp hperform
        cases r with
        | printf | printfTagged | sprintf =>
            rw [show rendered m.memory _ = none from hstops] at hrendered
            cases hrendered
        | strcpy | memset => cases hrendered
        | _ => cases hstops
    | some outcome =>
        rw [hperform] at hends
        cases hends with
        | returns hreturns =>
            obtain ⟨text, htext⟩ := hreturns.rendered_eq_ok
            rw [hrendered] at htext
            cases htext
        | fails hfails =>
            obtain rfl := Except.error.inj (Option.some.inj (hrendered.symm.trans hfails))
            exact ⟨m, hperform⟩

theorem rendered_eq_error_iff {now : Instant} {s : Symbol} {args : List Value} {r : Request}
    {m : Memory} {e : FormatError} (h : ofFlat now s args = .ok r) :
    r.rendered m = some (.error e) ↔ s.Misformats m args e := by
  unfold Symbol.Misformats
  cases s with
  | printf =>
      obtain ⟨p, hp, hr⟩ := follow_bind_eq_ok h
      cases hr
      simp [Symbol.template?, hp, rendered]
  | sprintf =>
      obtain ⟨target, -, hrest⟩ := follow_bind_eq_ok h
      obtain ⟨p, hp, hr⟩ := follow_bind_eq_ok hrest
      cases hr
      simp [Symbol.template?, hp, rendered]
  | atoi | atol | memset | gettimeofday =>
      obtain ⟨p, -, hr⟩ := follow_bind_eq_ok h
      cases hr
      simp [Symbol.template?, rendered]
  | strcpy | memcpy =>
      obtain ⟨target, -, hrest⟩ := follow_bind_eq_ok h
      obtain ⟨p, -, hr⟩ := follow_bind_eq_ok hrest
      cases hr
      simp [Symbol.template?, rendered]
  | _ =>
      cases h
      simp [Symbol.template?, rendered]

theorem failsWith_ofFlat_iff {now : Instant} {s : Symbol} {args : List Value} {m : Machine}
    {fault : Fault} :
    FailsWith (attempt (ofFlat now s args)) m fault ↔
      (fault = .nullPointer s ∧ ∃ i ∈ s.followed, pointer? args i = none) ∨
        (∀ i ∈ s.followed, pointer? args i ≠ none) ∧
          ∃ e, fault = .format e ∧ s.Misformats m.memory args e := by
  cases hread : ofFlat now s args with
  | error refused =>
      obtain ⟨rfl, hnone⟩ := ofFlat_eq_error_iff.mp hread
      constructor
      · rintro ⟨m', hthrow⟩
        cases hthrow
        exact .inl ⟨rfl, hnone⟩
      · rintro (⟨rfl, -⟩ | ⟨hblocks, -⟩)
        · exact ⟨m, rfl⟩
        · obtain ⟨i, hi, hnone⟩ := hnone
          exact absurd hnone (hblocks i hi)
  | ok r =>
      have hblocks : ∀ i ∈ s.followed, pointer? args i ≠ none := by
        intro i hi hnone
        have herror := (@ofFlat_eq_error_iff now s args _).mpr ⟨rfl, i, hi, hnone⟩
        rw [hread] at herror
        cases herror
      rw [attempt, failsWith_perform_iff]
      constructor
      · rintro ⟨e, hrendered, rfl⟩
        exact .inr ⟨hblocks, e, rfl, (rendered_eq_error_iff hread).mp hrendered⟩
      · rintro (⟨-, i, hi, hnone⟩ | ⟨-, e, rfl, hmisformats⟩)
        · exact absurd hnone (hblocks i hi)
        · exact ⟨e, (rendered_eq_error_iff hread).mpr hmisformats, rfl⟩

theorem failsWith_call_iff {now : Instant} {name : Text} {args : List Value} {m : Machine}
    {fault : Fault} :
    FailsWith (Action.call now name args) m fault ↔ Refuses m.memory name args fault := by
  rw [call_eq_attempt, ofCall]
  cases hname : Symbol.ofName? name with
  | none =>
      rw [Symbol.ofName?_eq_none_iff] at hname
      constructor
      · rintro ⟨m', hthrow⟩
        cases hthrow
        exact .unknownSymbol hname
      · intro hrefuses
        cases hrefuses with
        | unknownSymbol => exact ⟨m, rfl⟩
        | argumentCount hs | nullPointer hs | format hs => exact absurd hs (hname _)
  | some s =>
      have hs := Symbol.ofName?_eq_some_iff.mp hname
      have hunique {t : Symbol} (ht : t.name.toList = name) : t = s :=
        Option.some.inj ((Symbol.ofName?_eq_some_iff.mpr ht).symm.trans hname)
      by_cases hcount : args.length < s.arity
      · simp only [if_pos hcount]
        constructor
        · rintro ⟨m', hthrow⟩
          cases hthrow
          exact .argumentCount hs hcount
        · intro hrefuses
          cases hrefuses with
          | unknownSymbol hnone => exact absurd hs (hnone s)
          | argumentCount ht =>
              obtain rfl := hunique ht
              exact ⟨m, rfl⟩
          | nullPointer ht hlength | format ht hlength =>
              obtain rfl := hunique ht
              omega
      · simp only [if_neg hcount]
        rw [failsWith_ofFlat_iff]
        have hlength := Nat.le_of_not_lt hcount
        constructor
        · rintro (⟨rfl, i, hi, hnone⟩ | ⟨hblocks, e, rfl, hmisformats⟩)
          · exact .nullPointer hs hlength hi (pointer?_eq_none_iff.mp hnone)
          · refine .format hs hlength (fun i hi => ?_) hmisformats
            have hsome := hblocks i hi
            rw [Ne, pointer?_eq_none_iff] at hsome
            simpa using hsome
        · intro hrefuses
          cases hrefuses with
          | unknownSymbol hnone => exact absurd hs (hnone s)
          | argumentCount ht hshort =>
              obtain rfl := hunique ht
              omega
          | nullPointer ht _ hi hnone =>
              obtain rfl := hunique ht
              exact .inl ⟨rfl, _, hi, pointer?_eq_none_iff.mpr hnone⟩
          | format ht _ hblocks hmisformats =>
              obtain rfl := hunique ht
              refine .inr ⟨fun i hi hnone => ?_, _, rfl, hmisformats⟩
              obtain ⟨b, hb⟩ := hblocks i hi
              exact pointer?_eq_none_iff.mp hnone b hb

/-! ## Results -/

theorem stops_iff {now : Instant} {s : Symbol} {args : List Value} {r : Request} {m : Memory}
    (h : ofFlat now s args = .ok r) : r.Stops m ↔ s.Stops m args := by
  cases s with
  | printf =>
      obtain ⟨p, hp, hr⟩ := follow_bind_eq_ok h
      cases hr
      constructor
      · exact .formatted rfl hp
      · rintro (_ | _ | ⟨⟨⟩, hp', hnone⟩)
        obtain rfl := Option.some.inj (hp.symm.trans hp')
        exact hnone
  | sprintf =>
      obtain ⟨target, -, hrest⟩ := follow_bind_eq_ok h
      obtain ⟨p, hp, hr⟩ := follow_bind_eq_ok hrest
      cases hr
      constructor
      · exact .formatted rfl hp
      · rintro (_ | _ | ⟨⟨⟩, hp', hnone⟩)
        obtain rfl := Option.some.inj (hp.symm.trans hp')
        exact hnone
  | strcpy =>
      obtain ⟨target, htarget, hrest⟩ := follow_bind_eq_ok h
      obtain ⟨source, hsource, hr⟩ := follow_bind_eq_ok hrest
      cases hr
      constructor
      · exact .copied htarget hsource
      · rintro (⟨htarget', hsource', hovertakes⟩ | _ | ⟨⟨⟩, -, -⟩)
        obtain rfl := Option.some.inj (htarget.symm.trans htarget')
        obtain rfl := Option.some.inj (hsource.symm.trans hsource')
        exact hovertakes
  | memset =>
      obtain ⟨target, -, hr⟩ := follow_bind_eq_ok h
      cases hr
      constructor
      · exact .filled
      · rintro (_ | hcount | ⟨⟨⟩, -, -⟩)
        exact hcount
  | memcpy =>
      obtain ⟨target, -, hrest⟩ := follow_bind_eq_ok h
      obtain ⟨source, -, hr⟩ := follow_bind_eq_ok hrest
      cases hr
      exact ⟨False.elim, by rintro (_ | _ | ⟨⟨⟩, -, -⟩)⟩
  | atoi | atol | gettimeofday =>
      obtain ⟨p, -, hr⟩ := follow_bind_eq_ok h
      cases hr
      exact ⟨False.elim, by rintro (_ | _ | ⟨⟨⟩, -, -⟩)⟩
  | _ =>
      cases h
      exact ⟨False.elim, by rintro (_ | _ | ⟨⟨⟩, -, -⟩)⟩

theorem Returns.hasRegisters {now : Instant} {s : Symbol} {args : List Value} {r : Request}
    {m m' : Machine} {regs : List Value} (hreturns : Returns m r regs m')
    (h : ofFlat now s args = .ok r) : s.HasRegisters regs := by
  cases s with
  | sprintf =>
      obtain ⟨target, -, hrest⟩ := follow_bind_eq_ok h
      obtain ⟨template, -, hr⟩ := follow_bind_eq_ok hrest
      cases hr
      cases hreturns
      exact ⟨_, rfl⟩
  | strcpy | memcpy =>
      obtain ⟨target, -, hrest⟩ := follow_bind_eq_ok h
      obtain ⟨source, -, hr⟩ := follow_bind_eq_ok hrest
      cases hr
      cases hreturns
      exact ⟨some target, rfl⟩
  | memset =>
      obtain ⟨target, -, hr⟩ := follow_bind_eq_ok h
      cases hr
      cases hreturns
      exact ⟨some target, rfl⟩
  | printf | atoi | atol | gettimeofday =>
      obtain ⟨p, -, hr⟩ := follow_bind_eq_ok h
      cases hr
      cases hreturns
      exact ⟨_, rfl⟩
  | putc =>
      cases h
      generalize pointer? args 1 = file at hreturns
      cases hreturns <;> exact ⟨_, rfl⟩
  | malloc | calloc =>
      cases h
      cases hreturns
      exact ⟨some _, rfl⟩
  | free =>
      cases h
      cases hreturns
      rfl
  | _ =>
      cases h
      cases hreturns
      exact ⟨_, rfl⟩

theorem call_eq_perform (now : Instant) (s : Symbol) {args : List Value} {r : Request}
    (hcount : s.arity ≤ args.length) (hr : ofFlat now s args = .ok r) :
    Action.call now s.name.toList args = r.perform := by
  rw [call_eq_attempt, ofCall, Symbol.ofName?_eq_some_iff.mpr rfl]
  simp only [if_neg (Nat.not_lt.mpr hcount), hr]
  rfl

/-- A call that is not refused makes a request that its function has. -/
theorem ofFlat_of_not_refuses {now : Instant} {name : Text} {args : List Value} {m : Machine}
    {s : Symbol} (hs : s.name.toList = name)
    (h : ∀ fault, ¬ Refuses m.memory name args fault) :
    ∃ r, ofFlat now s args = .ok r ∧ Action.call now name args = r.perform := by
  have hname := Symbol.ofName?_eq_some_iff.mpr hs
  have hcount : ¬ args.length < s.arity := fun hshort => h _ (.argumentCount hs hshort)
  have hcall : Action.call now name args = attempt (ofFlat now s args) := by
    rw [call_eq_attempt, ofCall, hname]
    simp only [if_neg hcount]
  cases hread : ofFlat now s args with
  | error fault =>
      have hfails : FailsWith (Action.call now name args) m fault := by
        rw [hcall, hread]
        exact ⟨m, rfl⟩
      exact absurd (failsWith_call_iff.mp hfails) (h fault)
  | ok r =>
      rw [hread] at hcall
      exact ⟨r, rfl, hcall⟩

theorem misformats_of_append {s : Symbol} {m : Memory} {args extra : List Value}
    {e : FormatError} (hcount : s.arity ≤ args.length) (h : s.Misformats m (args ++ extra) e) :
    ∃ i, s.template? = some i ∧
      (Vararg.Joins (args.drop (i + 2)) extra ∨ ∃ e', s.Misformats m args e') := by
  obtain ⟨i, p, htemplate, hp, herror⟩ := h
  refine ⟨i, htemplate, or_iff_not_imp_left.mpr fun hjoins => ?_⟩
  have hwithin : i + 2 ≤ args.length := by
    have := s.template?_lt_arity htemplate
    omega
  have hp' : pointer? args i = some p := by
    unfold pointer? argument at hp ⊢
    rwa [List.getElem?_append_left (by omega), List.getElem?_append_left (by omega)] at hp
  rw [List.drop_append_of_le_length hwithin, Vararg.resolveAll_append m hjoins] at herror
  obtain ⟨e', herror'⟩ := Template.exists_error_of_append herror
  exact ⟨e', i, p, htemplate, hp', herror'⟩

theorem refuses_of_append {m : Memory} {name : Text} {args extra : List Value} {fault : Fault}
    (h : Refuses m name (args ++ extra) fault) :
    (∃ other, Refuses m name args other) ∨
      ∃ (s : Symbol) (i : Nat) (e : FormatError), s.name.toList = name ∧ s.template? = some i ∧
        fault = .format e ∧ Vararg.Joins (args.drop (i + 2)) extra := by
  cases h with
  | unknownSymbol hnone => exact .inl ⟨_, .unknownSymbol hnone⟩
  | argumentCount hs hshort =>
      rw [List.length_append] at hshort
      exact .inl ⟨_, .argumentCount hs (by omega)⟩
  | @nullPointer s i hs _ hi hnone =>
      by_cases hcount : args.length < s.arity
      · exact .inl ⟨_, .argumentCount hs hcount⟩
      · have hwithin : i + 1 < args.length := by
          have := s.followed_lt_arity hi
          omega
        rw [List.getElem?_append_left hwithin] at hnone
        exact .inl ⟨_, .nullPointer hs (Nat.le_of_not_lt hcount) hi hnone⟩
  | @format s e hs _ hblocks hmisformats =>
      by_cases hcount : args.length < s.arity
      · exact .inl ⟨_, .argumentCount hs hcount⟩
      · have hlength := Nat.le_of_not_lt hcount
        obtain ⟨i, htemplate, hjoins | ⟨e', hmisformats'⟩⟩ :=
          misformats_of_append hlength hmisformats
        · exact .inr ⟨s, i, e, hs, htemplate, rfl, hjoins⟩
        · refine .inl ⟨_, .format hs hlength ?_ hmisformats'⟩
          intro j hj
          have hwithin : j + 1 < args.length := by
            have := s.followed_lt_arity hj
            omega
          have hblock := hblocks j hj
          rwa [List.getElem?_append_left hwithin] at hblock

/-- What a call by name ends with.  It reads its list within bounds.  It fails as the rules say and
not otherwise.  When no rule applies it returns the registers of its function, unless it stops.
More values than needed never make a call fail, unless the first of them makes a pointer of the last
argument of a template. -/
theorem call_conditions (now : Instant) (name : Text) (args : List Value) (m : Machine) :
    (∃ read, (Reading.call now name args).run = some read ∧
      Action.call now name args = attempt read) ∧
    (∀ fault, FailsWith (Action.call now name args) m fault ↔ Refuses m.memory name args fault) ∧
    (∀ s : Symbol, s.name.toList = name → (∀ fault, ¬ Refuses m.memory name args fault) →
      (Action.call now name args m = none ↔ s.Stops m.memory args) ∧
      (¬ s.Stops m.memory args →
        ∃ regs m', Action.call now name args m = some (.ok regs, m') ∧ s.HasRegisters regs)) ∧
    ∀ extra fault, FailsWith (Action.call now name (args ++ extra)) m fault →
      (∃ other, FailsWith (Action.call now name args) m other) ∨
        ∃ (s : Symbol) (i : Nat) (e : FormatError), s.name.toList = name ∧
          s.template? = some i ∧ fault = .format e ∧
          Vararg.Joins (args.drop (i + 2)) extra := by
  refine ⟨⟨_, Reading.run_call now name args, call_eq_attempt now name args⟩,
    fun fault => failsWith_call_iff, ?_, ?_⟩
  · intro s hs haccepted
    obtain ⟨r, hread, hcall⟩ := @ofFlat_of_not_refuses now _ _ _ _ hs haccepted
    have hnone : r.perform m = none ↔ s.Stops m.memory args :=
      perform_eq_none_iff.trans (stops_iff hread)
    rw [hcall]
    refine ⟨hnone, fun hstops => ?_⟩
    have hends := r.ends_perform m
    cases hperform : r.perform m with
    | none => exact absurd (hnone.mp hperform) hstops
    | some outcome =>
        rw [hperform] at hends
        cases hends with
        | returns hreturns => exact ⟨_, _, rfl, hreturns.hasRegisters hread⟩
        | fails hrendered =>
            rw [← hcall] at hperform
            exact absurd (failsWith_call_iff.mp ⟨m, hperform⟩) (haccepted _)
  · intro extra fault hfails
    rcases refuses_of_append (failsWith_call_iff.mp hfails) with ⟨other, hother⟩ | htemplate
    · exact .inl ⟨other, failsWith_call_iff.mpr hother⟩
    · exact .inr htemplate

/-- `%*d` is printed with a width and a number.  A third number behind them does not make it fail,
nor do two values that are a pointer. -/
theorem call_conditions_surplus :
    let now : Instant := { seconds := 0, microseconds := 0 }
    let m : Machine := { memory := { blocks := #[(Memory.terminated ['%', '*', 'd']).toArray] } }
    let args : List Value := [.int 0, .block 0, .int 3, .int 7]
    (∀ fault, ¬ Refuses m.memory "printf".toList args fault) ∧
      ¬ Symbol.printf.Stops m.memory args ∧
      (∃ regs m', Action.call now "printf".toList args m = some (.ok regs, m') ∧
        Symbol.printf.HasRegisters regs) ∧
      ∀ extra ∈ [[.int 9], [.int 0, .block 0]], ∀ fault,
        ¬ FailsWith (Action.call now "printf".toList (args ++ extra)) m fault := by
  intro now m args
  obtain ⟨-, hfails, hreturns, hextra⟩ := call_conditions now "printf".toList args m
  have hcall : Action.call now "printf".toList args m =
      some (.ok [.int 3], { m with stdout := m.stdout.write [' ', ' ', '7'] }) := by
    decide +kernel
  have hnever (fault : Fault) : ¬ FailsWith (Action.call now "printf".toList args) m fault := by
    rintro ⟨m', h⟩
    rw [hcall] at h
    cases h
  have haccepted (fault : Fault) : ¬ Refuses m.memory "printf".toList args fault :=
    fun hrefuses => hnever fault ((hfails fault).mpr hrefuses)
  obtain ⟨hnone, hreturns⟩ := hreturns .printf rfl haccepted
  have hstops : ¬ Symbol.printf.Stops m.memory args := by
    rw [← hnone, hcall]
    exact nofun
  refine ⟨haccepted, hstops, hreturns hstops, ?_⟩
  intro extra hmem fault hfault
  rcases hextra extra fault hfault with ⟨other, hother⟩ | ⟨s, i, e, -, -, -, -, tail, hhead, htail⟩
  · exact hnever other hother
  · rcases List.mem_pair.mp hmem with rfl | rfl
    · obtain rfl := Option.some.inj hhead
      cases htail
    · obtain rfl := Option.some.inj hhead
      cases htail

/-- Three calls that no rule refuses and that have no result: the least count has no predecessor, a
text that is copied one cell further has no end, and `%.2147483647g` counts more decimals of 0.001
than 32 bits hold.  And a template that takes a number as its width fails when one more value makes
a pointer of it. -/
theorem call_conditions_excepted :
    let now : Instant := { seconds := 0, microseconds := 0 }
    let m : Machine := { memory := { blocks :=
      #[(Memory.terminated ['h', 'i']).toArray, (Memory.terminated ['%', '*', 'd']).toArray,
        (Memory.terminated "%.2147483647g".toList).toArray] } }
    let least : List Value := [.int 0, .block 0, .int 7, .int Int64.minValue]
    let further : List Value := [.int 1, .block 0, .int 0, .block 0]
    let precise : List Value := [.int 0, .block 2, .str "0.001".toList]
    let wide : List Value := [.int 0, .block 1, .int 0]
    ((∀ fault, ¬ Refuses m.memory "memset".toList least fault) ∧
      Action.call now "memset".toList least m = none) ∧
    ((∀ fault, ¬ Refuses m.memory "strcpy".toList further fault) ∧
      Action.call now "strcpy".toList further m = none) ∧
    ((∀ fault, ¬ Refuses m.memory "printf".toList precise fault) ∧
      Action.call now "printf".toList precise m = none) ∧
    Action.call now "printf".toList wide m =
        some (.ok [.int 1], { m with stdout := m.stdout.write ['0'] }) ∧
      FailsWith (Action.call now "printf".toList (wide ++ [.block 0])) m
        (.format (.nonFiniteWidth ['%', '*', 'd'])) := by
  intro now m least further precise wide
  have haccepted {name : Text} {args : List Value} (h : Action.call now name args m = none)
      (fault : Fault) : ¬ Refuses m.memory name args fault := by
    intro hrefuses
    obtain ⟨m', hfails⟩ := (@failsWith_call_iff now _ _ _ _).mpr hrefuses
    rw [h] at hfails
    cases hfails
  have hleast : Action.call now "memset".toList least m = none := by rfl
  have hfurther : Action.call now "strcpy".toList further m = none := by rfl
  have hprecise : Action.call now "printf".toList precise m = none := by decide +kernel
  have hwide : Action.call now "printf".toList wide m =
      some (.ok [.int 1], { m with stdout := m.stdout.write ['0'] }) := by decide +kernel
  have hpaired : Action.call now "printf".toList (wide ++ [.block 0]) m =
      some (.error (.format (.nonFiniteWidth ['%', '*', 'd'])), m) := by decide +kernel
  exact ⟨⟨haccepted hleast, hleast⟩, ⟨haccepted hfurther, hfurther⟩,
    ⟨haccepted hprecise, hprecise⟩, hwide, m, hpaired⟩

end Request

end CellMachine
