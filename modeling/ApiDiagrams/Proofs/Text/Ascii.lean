import ApiDiagrams.Text.Ascii
import Mathlib.Data.List.TakeWhile
import Mathlib.Tactic

/-!
# Classes of ASCII characters

The classes of characters as intervals of codes, and the digits that numbers are written with.

* `isDigit_iff`, `isLower_iff`, `isUpper_iff`: the classes by code;
* `isDigit_of_mem_toDigits`: numbers are written with digits;
* `decimalNumber_decimalDigits`, `length_decimalDigits`: a number with zeros in front;
* `lower_of_isDigit`: digits have no case.
-/

namespace ApiDiagrams
namespace Text

theorem isDigit_iff {c : Char} : isDigit c = true ↔ 48 ≤ c.toNat ∧ c.toNat ≤ 57 := by
  simp only [isDigit, Bool.and_eq_true, decide_eq_true_eq, Char.le_def, UInt32.le_iff_toNat_le]
  rfl

theorem isLower_iff {c : Char} : isLower c = true ↔ 97 ≤ c.toNat ∧ c.toNat ≤ 122 := by
  simp only [isLower, Bool.and_eq_true, decide_eq_true_eq, Char.le_def, UInt32.le_iff_toNat_le]
  rfl

theorem isUpper_iff {c : Char} : isUpper c = true ↔ 65 ≤ c.toNat ∧ c.toNat ≤ 90 := by
  simp only [isUpper, Bool.and_eq_true, decide_eq_true_eq, Char.le_def, UInt32.le_iff_toNat_le]
  rfl

theorem isDigit_of_mem_toDigits {c : Char} {n : ℕ} (h : c ∈ Nat.toDigits 10 n) :
    isDigit c = true := by
  have hd : c.isDigit = true := Nat.isDigit_of_mem_toDigits (by norm_num) (by norm_num) h
  simp only [Char.isDigit, Bool.and_eq_true, decide_eq_true_eq, ge_iff_le,
    UInt32.le_iff_toNat_le] at hd
  exact isDigit_iff.2 hd

/-! ### Numbers of a given width -/

theorem decimalNumber_eq (ds : List Char) : decimalNumber ds = Nat.ofDigitChars 10 ds 0 := by
  unfold decimalNumber Nat.ofDigitChars
  congr 1
  funext n c
  rw [Nat.mul_comm]
  rfl

/-- Zeros behind a number multiply it. -/
theorem decimalNumber_append_zeros (ds : List Char) (k : ℕ) :
    decimalNumber (ds ++ List.replicate k '0') = 10 ^ k * decimalNumber ds := by
  rw [decimalNumber_eq, decimalNumber_eq, Nat.ofDigitChars_append, Nat.ofDigitChars_replicate_zero]

theorem decimalNumber_decimalDigits (width n : ℕ) :
    decimalNumber (decimalDigits '0' width n) = n := by
  rw [decimalNumber_eq, decimalDigits, Nat.ofDigitChars_append, Nat.ofDigitChars_replicate_zero,
    Nat.mul_zero, Nat.ofDigitChars_ten_toDigits]

theorem length_decimalDigits {width n : ℕ} (hw : 0 < width) (hn : n < 10 ^ width) :
    (decimalDigits '0' width n).length = width := by
  have hle : (Nat.toDigits 10 n).length ≤ width :=
    (Nat.length_toDigits_le_iff (by norm_num) hw).2 hn
  rw [decimalDigits, List.length_append, List.length_replicate]
  omega

theorem isDigit_of_mem_decimalDigits {c : Char} {width n : ℕ}
    (h : c ∈ decimalDigits '0' width n) : isDigit c = true := by
  rcases List.mem_append.1 h with h | h
  · rw [List.eq_of_mem_replicate h]
    decide
  · exact isDigit_of_mem_toDigits h

/-- A text is its part without trailing zeros with these zeros behind it. -/
theorem exists_dropTrailing_zeros (text : List Char) :
    ∃ k, text = dropTrailing (· == '0') text ++ List.replicate k '0' := by
  refine ⟨(text.reverse.takeWhile (· == '0')).length, ?_⟩
  have hzeros : text.reverse.takeWhile (· == '0') =
      List.replicate (text.reverse.takeWhile (· == '0')).length '0' := by
    refine List.eq_replicate_iff.2 ⟨rfl, fun c hc => ?_⟩
    simpa using List.mem_takeWhile_imp hc
  calc text
      = (text.reverse.takeWhile (· == '0') ++ text.reverse.dropWhile (· == '0')).reverse := by
        rw [List.takeWhile_append_dropWhile, List.reverse_reverse]
    _ = dropTrailing (· == '0') text ++ (text.reverse.takeWhile (· == '0')).reverse :=
        List.reverse_append
    _ = _ := by rw [hzeros, List.reverse_replicate, List.length_replicate]

/-- The longest run at the front ends where another character follows. -/
theorem span_append {p : Char → Bool} {run after : List Char} (hrun : ∀ c ∈ run, p c = true)
    (hafter : ∀ c, after.head? = some c → p c = false) : span p (run ++ after) = (run, after) := by
  induction run with
  | nil =>
    cases after with
    | nil => rfl
    | cons c after => simp [span, hafter c rfl]
  | cons c run ih =>
    have hih := ih fun d hd => hrun d (List.mem_cons_of_mem _ hd)
    simp [span, hrun c List.mem_cons_self, hih]

@[simp] theorem startsWith?_append (head rest : List Char) :
    startsWith? head (head ++ rest) = some rest := by
  induction head with
  | nil => simp
  | cons c head ih => simpa [startsWith?] using ih

/-! ### Case -/

theorem lower_of_isDigit {c : Char} (h : isDigit c = true) : lower c = c := by
  refine if_neg fun hu => ?_
  have h1 := isDigit_iff.1 h
  have h2 := isUpper_iff.1 hu
  omega

end Text
end ApiDiagrams
