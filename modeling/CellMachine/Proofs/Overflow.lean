import CellMachine.Proofs.Operands
/-!
# Expansions that overflow

Where arithmetic is checked, a template has a text, an error or no result at all, and only general
notation can leave it without a result.  Main statements: a template without general notation is
expanded as if nothing were checked; and values that are added behind those of a template never make
it fail, since a count that finds its argument among them has none before.
-/

namespace CellMachine

/-- The conversion writes general notation. -/
def Conversion.isGeneral : Conversion → Bool
  | .general _ => true
  | _ => false

/-- The segment is a directive in general notation. -/
def Segment.isGeneral : Segment → Bool
  | .directive d _ => d.conversion.isGeneral
  | .literal _ | .percent => false

namespace Layout

theorem overflows_of_not_isGeneral {layout : Layout} (h : layout.conversion.isGeneral = false)
    (v : Value) : layout.overflows v = false := by
  unfold overflows
  cases hconversion : layout.conversion with
  | general upper =>
      rw [hconversion] at h
      cases h
  | _ => rfl

theorem overflows_undefined (layout : Layout) : layout.overflows .undefined = false := by
  unfold overflows
  cases layout.conversion <;> rfl

end Layout

namespace Template

/-- A directive whose counts are out of range ends the expansion before anything overflows. -/
theorem overflows_directive (args : Arguments) (d : Directive) (raw : Text)
    (rest : List Segment) :
    overflows args (.directive d raw :: rest) =
      match d.layout raw (d.operands args) with
      | .error _ => false
      | .ok layout =>
        layout.overflows (d.operands args).value || overflows (args.skip d.uses) rest := by
  rw [overflows, d.resolve_eq]
  cases d.layout raw (d.operands args) with
  | error e => rfl
  | ok layout =>
      simp only [Except.map, Arguments.snd_pick, Arguments.skip_skip]
      rfl

/-! ## Templates without general notation -/

theorem overflows_of_not_isGeneral {segments : List Segment}
    (h : ∀ s ∈ segments, s.isGeneral = false) (args : Arguments) :
    overflows args segments = false := by
  induction segments generalizing args with
  | nil => rfl
  | cons s rest ih =>
      have hrest := ih fun t ht => h t (List.mem_cons_of_mem s ht)
      cases s with
      | literal | percent => exact hrest args
      | directive d raw =>
          rw [overflows_directive]
          cases hlayout : d.layout raw (d.operands args) with
          | error e => rfl
          | ok layout =>
              have hgeneral : layout.conversion.isGeneral = false := by
                obtain ⟨width, precision, -, -, rfl⟩ := Directive.exists_of_layout_eq_ok hlayout
                exact h _ List.mem_cons_self
              simp only [Layout.overflows_of_not_isGeneral hgeneral, hrest, Bool.or_false]

/-- Only general notation can leave a template without a result. -/
theorem checkedFormat_of_not_isGeneral {template : Text}
    (h : ∀ s ∈ parse template, s.isGeneral = false) (m : Memory) (values : List Value) :
    checkedFormat m template values = some (format m template values) := by
  rw [checkedFormat, overflows_of_not_isGeneral h, if_neg Bool.false_ne_true]

end Template

/-! ## Further values -/

/-- Each value that is found in `args` is found in `args'` at the same place. -/
structure Arguments.Within (args args' : Arguments) : Prop where
  cursor_eq : args'.cursor = args.cursor
  get_eq : ∀ i, args'.get i = args.get i ∨ args.get i = .undefined

namespace Arguments.Within

variable {args args' : Arguments}

theorem skip (h : args.Within args') (n : Nat) : (args.skip n).Within (args'.skip n) where
  cursor_eq := by
    simp only [Arguments.skip, h.cursor_eq]
  get_eq := h.get_eq

theorem fst_pick (h : args.Within args') (position : Option Nat) :
    (args'.pick position).1 = (args.pick position).1 ∨ (args.pick position).1 = .undefined := by
  cases position with
  | none =>
      show args'.get args'.cursor = args.get args.cursor ∨ args.get args.cursor = .undefined
      rw [h.cursor_eq]
      exact h.get_eq args.cursor
  | some k =>
      cases k with
      | zero => exact .inl rfl
      | succ index => exact h.get_eq index

/-- A count is the same, or it was not found before and is not finite. -/
theorem fst_count (h : args.Within args') (count : Count) :
    (args'.count count).1 = (args.count count).1 ∨ (args.count count).1.trunc? = none := by
  have hvalue {v v' : Value} (hv : v' = v ∨ v = .undefined) :
      v'.toDouble = v.toDouble ∨ v.toDouble.trunc? = none := by
    rcases hv with rfl | rfl
    · exact .inl rfl
    · exact .inr rfl
  cases count with
  | literal n => exact .inl rfl
  | next => exact hvalue (h.fst_pick none)
  | position k => exact hvalue (h.fst_pick (some k))

theorem elim_eq {α : Type} (h : args.Within args') (source : Option Count) {absent found : α}
    {check : Double → Except FormatError α}
    (hcheck : ∀ x, x.trunc? = none → ∃ e, check x = .error e)
    (hfound : (source.map fun count => (args.count count).1).elim (.ok absent) check = .ok found) :
    (source.map fun count => (args'.count count).1).elim (.ok absent) check = .ok found := by
  cases source with
  | none => exact hfound
  | some count =>
      simp only [Option.map_some, Option.elim_some] at hfound ⊢
      rcases h.fst_count count with hsame | hnone
      · rw [hsame, hfound]
      · obtain ⟨e, herror⟩ := hcheck _ hnone
        rw [herror] at hfound
        cases hfound

/-- A directive that had its counts keeps its layout. -/
theorem layout_eq (h : args.Within args') {d : Directive} {raw : Text} {layout : Layout}
    (hlayout : d.layout raw (d.operands args) = .ok layout) :
    d.layout raw (d.operands args') = .ok layout := by
  obtain ⟨width, precision, hwidth, hprecision, rfl⟩ := Directive.exists_of_layout_eq_ok hlayout
  apply Directive.layout_of_ok
  · apply h.elim_eq d.width _ hwidth
    intro x hx
    exact ⟨_, by rw [Directive.checkWidth, hx]⟩
  · apply (h.skip d.widthUses).elim_eq d.precision _ hprecision
    intro x hx
    exact ⟨_, by rw [Directive.checkPrecision, hx]⟩

theorem overflows_value (h : args.Within args') (d : Directive) {layout : Layout}
    (hlayout : layout.overflows (d.operands args').value = false) :
    layout.overflows (d.operands args).value = false := by
  rcases (h.skip (d.widthUses + d.precisionUses)).fst_pick d.position with hsame | hundefined
  · exact (congrArg layout.overflows hsame).symm.trans hlayout
  · exact (congrArg layout.overflows hundefined).trans layout.overflows_undefined

end Arguments.Within

theorem Segment.text_of_layout (m : Memory) {args : Arguments} {d : Directive} {raw : Text}
    {layout : Layout} (h : d.layout raw (d.operands args) = .ok layout) :
    Segment.text m args (.directive d raw) = .ok (layout.render m (d.operands args).value) := by
  rw [text, h]
  rfl

namespace Template

/-- Where an expansion fails with further values, it fails without them, and nothing overflows
before. -/
theorem expand_of_within (m : Memory) (segments : List Segment) {args args' : Arguments}
    (h : args.Within args') {e : FormatError} (herror : expand m args' segments = .error e)
    (hchecked : overflows args' segments = false) :
    (∃ e', expand m args segments = .error e') ∧ overflows args segments = false := by
  induction segments generalizing args args' with
  | nil => cases herror
  | cons s rest ih =>
      have hrest {text : Text} (htext : s.text m args' = .ok text) :
          expand m (args'.skip s.uses) rest = .error e := by
        rw [expand_cons, htext] at herror
        cases hexpand : expand m (args'.skip s.uses) rest with
        | error e' =>
            rw [hexpand] at herror
            exact herror
        | ok more =>
            rw [hexpand] at herror
            cases herror
      have hfails {text : Text} (htext : s.text m args = .ok text)
          (hmore : ∃ e', expand m (args.skip s.uses) rest = .error e') :
          ∃ e', expand m args (s :: rest) = .error e' := by
        obtain ⟨e', hmore⟩ := hmore
        exact ⟨e', by rw [expand_cons, htext, hmore]; rfl⟩
      cases s with
      | literal | percent =>
          obtain ⟨hmore, hoverflows⟩ := ih h (hrest rfl) hchecked
          exact ⟨hfails rfl hmore, hoverflows⟩
      | directive d raw =>
          rw [overflows_directive]
          cases hlayout : d.layout raw (d.operands args) with
          | error e' =>
              refine ⟨⟨e', ?_⟩, rfl⟩
              rw [expand_cons, Segment.text, hlayout]
              rfl
          | ok layout =>
              have hlayout' := h.layout_eq hlayout
              rw [overflows_directive, hlayout', Bool.or_eq_false_iff] at hchecked
              obtain ⟨hmore, hoverflows⟩ :=
                ih (h.skip d.uses) (hrest (Segment.text_of_layout m hlayout')) hchecked.2
              refine ⟨hfails (Segment.text_of_layout m hlayout) hmore, ?_⟩
              simp only [h.overflows_value d hchecked.1, hoverflows, Bool.or_false]

theorem within_append (values more : List Value) :
    Arguments.Within { values := values } { values := values ++ more } where
  cursor_eq := rfl
  get_eq i := by
    simp only [Arguments.get]
    rcases Nat.lt_or_ge i values.length with hlt | hge
    · exact .inl (by rw [List.getElem?_append_left hlt])
    · exact .inr (by rw [List.getElem?_eq_none hge]; rfl)

/-- Values that are added behind those of a template never make it fail. -/
theorem exists_error_of_append {m : Memory} {template : Text} {values more : List Value}
    {e : FormatError} (h : checkedFormat m template (values ++ more) = some (.error e)) :
    ∃ e', checkedFormat m template values = some (.error e') := by
  unfold checkedFormat at h ⊢
  cases hchecked : overflows { values := values ++ more } (parse template) with
  | true =>
      rw [hchecked] at h
      cases h
  | false =>
      rw [hchecked] at h
      obtain ⟨⟨e', herror⟩, hoverflows⟩ := expand_of_within m (parse template)
        (within_append values more) (Option.some.inj h) hchecked
      exact ⟨e', by rw [hoverflows, format, herror]; rfl⟩

end Template

end CellMachine
