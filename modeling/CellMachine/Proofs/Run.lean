import CellMachine.Text.Numeral
import Mathlib.Tactic.IntervalCases
/-!
# Runs of characters

Readers cut the longest run of a class of characters off the head of a text.  The first part of
this module says when such a cut falls exactly where a run was put in front of a text; the second
part relates runs of digits to the numbers that they denote.
-/

namespace CellMachine

namespace Text

/-- No run of the class `p` begins at the head of `text`. -/
def Stops (p : Char → Bool) (text : Text) : Prop := ∀ c ∈ text.head?, p c = false

@[simp] theorem stops_cons (p : Char → Bool) (c : Char) (text : Text) :
    Stops p (c :: text) ↔ p c = false := by
  simp [Stops]

theorem stops_append_cons {p : Char → Bool} {run : Text} {c : Char} (rest : Text)
    (hrun : ∀ d ∈ run, p d = false) (hc : p c = false) : Stops p (run ++ c :: rest) := by
  cases run with
  | nil => simpa using hc
  | cons d run => simpa using hrun d (by simp)

theorem stops_dropWhile (p : Char → Bool) (text : Text) : Stops p (text.dropWhile p) := by
  intro c hc
  have hhead := List.head?_dropWhile_not p text
  rw [Option.mem_def.mp hc] at hhead
  exact hhead

theorem takeWhile_eq_nil {p : Char → Bool} {text : Text} (h : Stops p text) :
    text.takeWhile p = [] := by
  cases text with
  | nil => rfl
  | cons c text => simp [(stops_cons p c text).mp h]

theorem dropWhile_eq_self {p : Char → Bool} {text : Text} (h : Stops p text) :
    text.dropWhile p = text := by
  cases text with
  | nil => rfl
  | cons c text => simp [(stops_cons p c text).mp h]

theorem takeWhile_run_append {p : Char → Bool} {run rest : Text} (hrun : ∀ c ∈ run, p c)
    (hrest : Stops p rest) : (run ++ rest).takeWhile p = run := by
  rw [List.takeWhile_append_of_pos hrun, takeWhile_eq_nil hrest, List.append_nil]

theorem dropWhile_run_append {p : Char → Bool} {run rest : Text} (hrun : ∀ c ∈ run, p c)
    (hrest : Stops p rest) : (run ++ rest).dropWhile p = rest := by
  rw [List.dropWhile_append_of_pos hrun, dropWhile_eq_self hrest]

/-- A character that `run` does not hold does not follow the first `p`-run of `run ++ rest` unless
it follows that of `rest`. -/
theorem stops_dropWhile_append {p : Char → Bool} {mark : Char} {run rest : Text}
    (hrun : ∀ c ∈ run, c ≠ mark) (hrest : Stops (· == mark) (rest.dropWhile p)) :
    Stops (· == mark) ((run ++ rest).dropWhile p) := by
  induction run with
  | nil => exact hrest
  | cons c run ih =>
      rw [List.cons_append, List.dropWhile_cons]
      split
      · exact ih fun d hd => hrun d (by simp [hd])
      · simpa using hrun c (by simp)

end Text

namespace Numeral

theorem value_eq_ofDigitChars (run : Text) : value run = Nat.ofDigitChars 10 run 0 := rfl

theorem value_digits (n : Nat) : value (digits 10 n) = n := Nat.ofDigitChars_ten_toDigits

theorem value_zeros_append (n : Nat) (run : Text) :
    value (List.replicate n '0' ++ run) = value run := by
  rw [value_eq_ofDigitChars, Nat.ofDigitChars_append, Nat.ofDigitChars_replicate_zero, Nat.mul_zero]
  rfl

theorem digits_ne_nil (n : Nat) : digits 10 n ≠ [] := Nat.toDigits_ne_nil

theorem isDigit_of_mem_digits {n : Nat} {c : Char} (h : c ∈ digits 10 n) : c.isDigit :=
  Nat.isDigit_of_mem_toDigits (by decide) (by decide) h

private theorem digitChar_ne_zero {n : Nat} (hpos : 0 < n) (hlt : n < 10) :
    n.digitChar ≠ '0' := by
  interval_cases n <;> decide

/-- Only zero is written with a leading zero. -/
theorem stops_zero_digits {n : Nat} (h : 0 < n) : Text.Stops (· == '0') (digits 10 n) := by
  induction n using Nat.strongRecOn with
  | ind n ih =>
      unfold digits
      by_cases hlt : n < 10
      · rw [Nat.toDigits_of_lt_base hlt]
        simpa using digitChar_ne_zero h hlt
      · rw [Nat.toDigits_of_base_le (by decide) (by omega)]
        have hhead := ih (n / 10) (by omega) (by omega)
        cases hdigits : digits 10 (n / 10) with
        | nil => exact absurd hdigits (digits_ne_nil _)
        | cons c rest =>
            rw [hdigits] at hhead
            unfold digits at hdigits
            rw [hdigits]
            simpa using hhead

private theorem foldl_saturated (limit n : Nat) (run : Text) :
    run.foldl (fun n c => min limit (10 * n + digitValue c)) (min limit n) =
      min limit (run.foldl (fun n c => 10 * n + digitValue c) n) := by
  induction run generalizing n with
  | nil => rfl
  | cons c run ih =>
      have hstep : min limit (10 * min limit n + digitValue c) =
          min limit (10 * n + digitValue c) := by omega
      rw [List.foldl_cons, List.foldl_cons, hstep, ih]

/-- To saturate at every digit is to saturate once at the end. -/
theorem saturated_eq_min (limit : Nat) (run : Text) :
    saturated limit run = min limit (value run) := by
  have hfold := foldl_saturated limit 0 run
  rw [Nat.min_zero] at hfold
  exact hfold

end Numeral

end CellMachine
