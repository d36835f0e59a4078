import CellMachine.Machine.Library
import CellMachine.Proofs.Run
import Mathlib.Data.Int.ModEq
import Mathlib.Data.List.Induction
import Mathlib.Data.List.TakeWhile
import Mathlib.Data.Nat.Digits.Defs
/-!
# The integer at the head of a text

A text begins with blanks, a sign and digits, each of which may be missing, and there is one way to
cut it so that each part is as long as it can be.  The reader wraps around at every digit, negates
at the end, and may then be cut down to 32 bits.  Main statement: each of its results is the integer
that the sign and the digits denote, however many they are, reduced once.
-/

namespace CellMachine

namespace Numeral

/-! ## Digits -/

private theorem foldl_wrapped (n : Nat) (run : Text) :
    run.foldl (fun n c => n * 10 + Int64.ofNat (digitValue c)) (Int64.ofNat n) =
      Int64.ofNat (run.foldl (fun n c => 10 * n + digitValue c) n) := by
  induction run generalizing n with
  | nil => rfl
  | cons c run ih =>
      have hstep : Int64.ofNat n * 10 + Int64.ofNat (digitValue c) =
          Int64.ofNat (10 * n + digitValue c) := by
        rw [Int64.ofNat_add, Int64.ofNat_mul, Int64.mul_comm]
        rfl
      rw [List.foldl_cons, List.foldl_cons, hstep, ih]

/-- To wrap around at every digit is to wrap around once at the end. -/
theorem wrapped_eq_ofNat (run : Text) : wrapped run = Int64.ofNat (value run) := foldl_wrapped 0 run

/-- Digits read from the left denote what they do by their places. -/
theorem value_eq_ofDigits (run : Text) :
    value run = Nat.ofDigits 10 (run.reverse.map digitValue) := by
  induction run using List.reverseRecOn with
  | nil => rfl
  | append_singleton run c ih =>
      have hlast : value (run ++ [c]) = 10 * value run + digitValue c := by
        simp only [value, List.foldl_append, List.foldl_cons, List.foldl_nil]
      rw [hlast, ih, List.reverse_concat, List.map_cons, Nat.ofDigits_cons, Nat.add_comm]

/-! ## The parts of a text -/

def isSign (c : Char) : Bool := c == '+' || c == '-'

theorem isSign_eq_false_of_isDigit {c : Char} (h : c.isDigit) : isSign c = false := by
  simp only [isSign, Bool.or_eq_false_iff, beq_eq_false_iff_ne]
  constructor <;> rintro rfl <;> exact absurd h (by decide)

/-- A text in four parts. -/
@[ext] structure Head where
  blanks : Text
  sign : Text
  digits : Text
  rest : Text

namespace Head

/-- The text that the parts make up. -/
def text (head : Head) : Text := head.blanks ++ (head.sign ++ (head.digits ++ head.rest))

/-- The integer that the sign and the digits denote. -/
def number (head : Head) : Int :=
  let magnitude : Nat := Nat.ofDigits 10 (head.digits.reverse.map digitValue)
  if head.sign = ['-'] then -(magnitude : Int) else magnitude

/-- Each part is of its kind and as long as it can be. -/
structure Maximal (head : Head) : Prop where
  blanks : ∀ c ∈ head.blanks, Text.isBlank c
  stops_blank : Text.Stops Text.isBlank (head.sign ++ (head.digits ++ head.rest))
  sign : head.sign = [] ∨ head.sign = ['+'] ∨ head.sign = ['-']
  stops_sign : head.sign = [] → Text.Stops isSign (head.digits ++ head.rest)
  digits : ∀ c ∈ head.digits, c.isDigit
  stops_digit : Text.Stops Char.isDigit head.rest

end Head

theorem exists_sign (text : Text) :
    ∃ sign rest : Text, text = sign ++ rest ∧ (sign = [] ∨ sign = ['+'] ∨ sign = ['-']) ∧
      (sign = [] → Text.Stops isSign rest) := by
  cases text with
  | nil => exact ⟨[], [], rfl, .inl rfl, fun _ => by simp [Text.Stops]⟩
  | cons c rest =>
      by_cases hplus : c = '+'
      · exact ⟨['+'], rest, by rw [hplus]; rfl, .inr (.inl rfl), by simp⟩
      · by_cases hminus : c = '-'
        · exact ⟨['-'], rest, by rw [hminus]; rfl, .inr (.inr rfl), by simp⟩
        · exact ⟨[], c :: rest, rfl, .inl rfl, fun _ => by simp [isSign, hplus, hminus]⟩

/-- The sign of a text is its first character, if that is one. -/
theorem filter_isSign_take_one {sign rest : Text}
    (hsign : sign = [] ∨ sign = ['+'] ∨ sign = ['-'])
    (hstops : sign = [] → Text.Stops isSign rest) :
    ((sign ++ rest).take 1).filter isSign = sign := by
  rcases hsign with rfl | rfl | rfl
  · cases rest with
    | nil => rfl
    | cons c rest => simpa using hstops rfl
  · rfl
  · rfl

namespace Head

/-- Every text can be cut into its parts. -/
theorem exists_maximal (text : Text) : ∃ head : Head, head.Maximal ∧ head.text = text := by
  obtain ⟨sign, unsigned, htail, hsign, hstops⟩ := exists_sign text.trimStart
  have hdigits := List.takeWhile_append_dropWhile (p := Char.isDigit) (l := unsigned)
  refine ⟨⟨text.takeWhile Text.isBlank, sign, unsigned.takeWhile Char.isDigit,
    unsigned.dropWhile Char.isDigit⟩, ⟨?_, ?_, hsign, ?_, ?_, ?_⟩, ?_⟩
  · exact fun c hc => List.mem_takeWhile_imp hc
  · rw [hdigits, ← htail]
    exact Text.stops_dropWhile _ _
  · rwa [hdigits]
  · exact fun c hc => List.mem_takeWhile_imp hc
  · exact Text.stops_dropWhile _ _
  · rw [Head.text, hdigits, ← htail]
    exact List.takeWhile_append_dropWhile

/-- There is one way to cut a text into its parts. -/
theorem Maximal.eq_of_text_eq {a b : Head} (ha : a.Maximal) (hb : b.Maximal)
    (h : a.text = b.text) : a = b := by
  -- From the left: each part is found again in what the parts in front of it leave.
  have hblanks : a.blanks = b.blanks := by
    have hcut := congrArg (List.takeWhile Text.isBlank) h
    rwa [text, text, Text.takeWhile_run_append ha.blanks ha.stops_blank,
      Text.takeWhile_run_append hb.blanks hb.stops_blank] at hcut
  have htail : a.sign ++ (a.digits ++ a.rest) = b.sign ++ (b.digits ++ b.rest) := by
    rw [text, text, hblanks] at h
    exact List.append_cancel_left h
  have hsign : a.sign = b.sign := by
    have hcut := congrArg (fun tail => (tail.take 1).filter isSign) htail
    simpa only [filter_isSign_take_one ha.sign ha.stops_sign,
      filter_isSign_take_one hb.sign hb.stops_sign] using hcut
  have hunsigned : a.digits ++ a.rest = b.digits ++ b.rest := by
    rw [hsign] at htail
    exact List.append_cancel_left htail
  have hdigits : a.digits = b.digits := by
    have hcut := congrArg (List.takeWhile Char.isDigit) hunsigned
    rwa [Text.takeWhile_run_append ha.digits ha.stops_digit,
      Text.takeWhile_run_append hb.digits hb.stops_digit] at hcut
  have hrest : a.rest = b.rest := by
    rw [hdigits] at hunsigned
    exact List.append_cancel_left hunsigned
  exact Head.ext hblanks hsign hdigits hrest

end Head

/-! ## Reading -/

theorem signedWrapped_of_stops {text : Text} (h : Text.Stops isSign text) :
    signedWrapped text = wrapped (text.takeWhile Char.isDigit) := by
  unfold signedWrapped
  split
  · simp [isSign] at h
  · simp [isSign] at h
  · rfl

namespace Head

variable {head : Head}

/-- The reader takes the digits and then the sign. -/
theorem Maximal.leadingInt_eq (h : head.Maximal) :
    leadingInt head.text =
      if head.sign = ['-'] then -Int64.ofNat (value head.digits)
      else Int64.ofNat (value head.digits) := by
  have hdigits : wrapped ((head.digits ++ head.rest).takeWhile Char.isDigit) =
      Int64.ofNat (value head.digits) := by
    rw [Text.takeWhile_run_append h.digits h.stops_digit, wrapped_eq_ofNat]
  rw [leadingInt, Text.trimStart, text, Text.dropWhile_run_append h.blanks h.stops_blank, ← hdigits]
  rcases h.sign with hsign | hsign | hsign
  · rw [hsign, if_neg (by decide)]
    exact signedWrapped_of_stops (h.stops_sign hsign)
  · rw [hsign, if_neg (by decide)]
    rfl
  · rw [hsign, if_pos rfl]
    rfl

theorem Maximal.leadingInt_eq_ofInt (h : head.Maximal) :
    leadingInt head.text = Int64.ofInt head.number := by
  rw [h.leadingInt_eq, number, ← value_eq_ofDigits]
  split
  · rw [Int64.ofInt_neg, Int64.ofInt_eq_ofNat]
  · rw [Int64.ofInt_eq_ofNat]

end Head

/-- An integer that is cut down to 64 bits keeps its residue. -/
theorem toInt_ofInt_modEq (n : Int) : (Int64.ofInt n).toInt ≡ n [ZMOD 2 ^ 64] := by
  rw [Int64.toInt_ofInt]
  exact Int.bmod_emod

/-- What is cut down to 64 bits first and to 32 bits then keeps its residue of the latter. -/
theorem toInt_toInt32_ofInt_modEq (n : Int) :
    (Int64.ofInt n).toInt32.toInt64.toInt ≡ n [ZMOD 2 ^ 32] := by
  have hfirst : (Int64.ofInt n).toInt ≡ n [ZMOD 2 ^ 32] :=
    (toInt_ofInt_modEq n).of_dvd (by decide)
  have hsecond : (Int64.ofInt n).toInt.bmod (2 ^ 32) ≡ (Int64.ofInt n).toInt [ZMOD 2 ^ 32] :=
    Int.bmod_emod
  rw [Int32.toInt_toInt64, Int64.toInt_toInt32]
  exact hsecond.trans hfirst

end Numeral

namespace Action

theorem atol_apply (p : Pointer) (m : Machine) :
    atol p m = some (.ok (Numeral.leadingInt (m.memory.textAt p)), m) := rfl

theorem atoi_apply (p : Pointer) (m : Machine) :
    atoi p m = some (.ok (Numeral.leadingInt (m.memory.textAt p)).toInt32.toInt64, m) := rfl

/-- Every text is blanks, at most one sign, digits and a rest in one way in which each part is as
long as it can be.  The leading integer of the text is the 64-bit integer congruent modulo `2 ^ 64`
to what the sign and the digits denote, zero without digits.  Where the text is in memory, `atol`
returns that integer, and `atoi` the signed 32-bit integer congruent modulo `2 ^ 32` to the same
number. -/
theorem atol_atoi_exact (text : Text) :
    ∃ head : Numeral.Head, (head.Maximal ∧ head.text = text) ∧
      (∀ other : Numeral.Head, other.Maximal → other.text = text → other = head) ∧
      (Numeral.leadingInt text).toInt ≡ head.number [ZMOD 2 ^ 64] ∧
      (head.digits = [] → Numeral.leadingInt text = 0) ∧
      ∀ (m : Machine) (p : Pointer), m.memory.textAt p = text →
        atol p m = some (.ok (Numeral.leadingInt text), m) ∧
        ∃ reduced : Int64, atoi p m = some (.ok reduced, m) ∧
          -2 ^ 31 ≤ reduced.toInt ∧ reduced.toInt < 2 ^ 31 ∧
          reduced.toInt ≡ head.number [ZMOD 2 ^ 32] := by
  obtain ⟨head, hmaximal, rfl⟩ := Numeral.Head.exists_maximal text
  have hread := hmaximal.leadingInt_eq_ofInt
  refine ⟨head, ⟨hmaximal, rfl⟩, ?_, ?_, ?_, ?_⟩
  · intro other hother htext
    exact hother.eq_of_text_eq hmaximal htext
  · rw [hread]
    exact Numeral.toInt_ofInt_modEq head.number
  · intro hnone
    rw [hmaximal.leadingInt_eq, hnone]
    split <;> rfl
  · intro m p htext
    rw [atol_apply, atoi_apply, htext, hread]
    refine ⟨rfl, _, rfl, ?_, ?_, Numeral.toInt_toInt32_ofInt_modEq head.number⟩
    · rw [Int32.toInt_toInt64]
      exact Int32.le_toInt _
    · rw [Int32.toInt_toInt64]
      exact Int32.toInt_lt _

/-- The number behind a wide blank and a tab is below the least 64-bit integer by one. -/
theorem atol_atoi_exact_wrapped :
    let text : Text := ['\u2003', '\t'] ++ "-9223372036854775809".toList ++ ['+', '1']
    let parts : Numeral.Head :=
      ⟨['\u2003', '\t'], ['-'], "9223372036854775809".toList, ['+', '1']⟩
    let m : Machine := { memory := { blocks := #[(Memory.terminated text).toArray] } }
    let p : Pointer := { block := 0 }
    parts.Maximal ∧ parts.text = text ∧ parts.number = -9223372036854775809 ∧
      m.memory.textAt p = text ∧ atol p m = some (.ok 9223372036854775807, m) ∧
      atoi p m = some (.ok (-1), m) := by
  intro text parts m p
  have htext : m.memory.textAt p = text := by decide +kernel
  have hwhole : parts.text = text := by decide
  have hparts : parts.Maximal := by
    refine ⟨?_, ?_, .inr (.inr rfl), nofun, ?_, ?_⟩
    · exact List.all_eq_true.mp (by decide)
    · exact (Text.stops_cons _ _ _).mpr (by decide)
    · exact List.all_eq_true.mp (by decide)
    · exact (Text.stops_cons _ _ _).mpr (by decide)
  obtain ⟨head, -, hunique, hlong, -, hmemory⟩ := atol_atoi_exact text
  obtain rfl : parts = head := hunique parts hparts hwhole
  obtain ⟨hatol, reduced, hatoi, hlow, hhigh, hreduced⟩ := hmemory m p htext
  have hnumber : parts.number = -9223372036854775809 := by decide +kernel
  rw [hnumber] at hlong hreduced
  have hsigned : Numeral.leadingInt text = 9223372036854775807 := by
    have hmin := (Numeral.leadingInt text).le_toInt
    have hmax := (Numeral.leadingInt text).toInt_lt
    unfold Int.ModEq at hlong
    apply Int64.toInt_inj.mp
    have hvalue : (9223372036854775807 : Int64).toInt = 9223372036854775807 := by decide
    omega
  have hminus : reduced = -1 := by
    unfold Int.ModEq at hreduced
    apply Int64.toInt_inj.mp
    have hvalue : (-1 : Int64).toInt = -1 := by decide
    omega
  rw [hsigned] at hatol
  rw [hminus] at hatoi
  exact ⟨hparts, hwhole, hnumber, htext, hatol, hatoi⟩

end Action

end CellMachine
