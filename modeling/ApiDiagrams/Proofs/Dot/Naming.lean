import ApiDiagrams.Dot.Context
import ApiDiagrams.Proofs.Text.Ascii
import Mathlib.Data.List.Perm.Subperm
import Mathlib.Data.String.Basic
import Mathlib.Tactic

/-!
# The names of graphs

A title asks for a base, and the base gets a number behind it when it is taken. Candidates for
different numbers differ even when the base is cut to make room, since the number is what stands
behind the last underscore; so among more candidates than names in use one is free.

* `IsUid`: what a name of a graph looks like;
* `isUid_uidBase`, `isUid_candidate`: bases and candidates look like that;
* `candidate_injective`: different numbers give different candidates;
* `NameFor`: the base if it is free, else the candidate of the least number that is free;
* `nameFor_freeUid`: this is the name that a context gives.
-/

namespace ApiDiagrams
namespace Dot

/-! ### Characters -/

/-- A character of a name. -/
def isUidChar (c : Char) : Bool := Text.isLower c || Text.isDigit c || c == '_'

theorem isUidChar_uidChar (c : Char) : isUidChar (uidChar c) = true := by
  unfold uidChar
  split_ifs with h1 h2
  · exact h1
  · -- a capital is one of twenty-six characters
    have hall : ∀ n ≤ 90, 65 ≤ n → isUidChar (Char.ofNat (n + 32)) = true := by decide
    have hc := Text.isUpper_iff.1 h2
    rw [Text.lower, if_pos h2]
    exact hall c.toNat hc.2 hc.1
  · rfl

theorem isUidChar_of_mem_toDigits {c : Char} {n : ℕ} (h : c ∈ Nat.toDigits 10 n) :
    isUidChar c = true := by
  simp [isUidChar, Text.isDigit_of_mem_toDigits h]

theorem utf8Size_of_isUidChar {c : Char} (h : isUidChar c = true) : c.utf8Size = 1 := by
  have hc : c.toNat ≤ 127 := by
    simp only [isUidChar, Bool.or_eq_true, beq_iff_eq, Text.isLower_iff, Text.isDigit_iff] at h
    rcases h with (h | h) | rfl
    · omega
    · omega
    · decide
  exact Char.utf8Size_eq_one_iff.2 (UInt32.le_iff_toNat_le.2 hc)

/-! ### Names -/

/-- A name of a graph: small letters, digits and underscores, at least one, no digit in front. -/
structure IsUid (u : List Char) : Prop where
  ne_nil : u ≠ []
  chars : ∀ c ∈ u, isUidChar c = true
  head : ∀ c, u.head? = some c → Text.isDigit c = false

/-- A name takes a byte for each character. -/
theorem IsUid.utf8ByteSize {u : List Char} (h : IsUid u) :
    (String.ofList u).utf8ByteSize = u.length := by
  obtain ⟨-, hc, -⟩ := h
  rw [String.utf8ByteSize_ofList]
  induction u with
  | nil => rfl
  | cons c u ih =>
    rw [String.utf8Len_cons, ih fun x hx => hc x (List.mem_cons_of_mem _ hx),
      utf8Size_of_isUidChar (hc c List.mem_cons_self), List.length_cons]

theorem IsUid.take {u : List Char} (h : IsUid u) {n : ℕ} (hn : 0 < n) : IsUid (u.take n) where
  ne_nil := by
    rw [Ne, List.take_eq_nil_iff]
    exact not_or.2 ⟨hn.ne', h.ne_nil⟩
  chars c hc := h.chars c (List.mem_of_mem_take hc)
  head c hc := by
    rw [List.head?_take, if_neg hn.ne'] at hc
    exact h.head c hc

theorem isUid_uidBase (folded : List Char) : IsUid (uidBase folded) := by
  refine IsUid.take ?_ (by decide)
  have hmap : ∀ c ∈ folded.map uidChar, isUidChar c = true := by
    intro c hc
    obtain ⟨d, -, rfl⟩ := List.mem_map.1 hc
    exact isUidChar_uidChar d
  -- an empty title becomes `graph`, and a digit in front gets a letter before it
  generalize folded.map uidChar = u at hmap
  have hall : ∀ c ∈ (if u = [] then "graph".toList else u), isUidChar c = true := by
    split_ifs
    · exact List.all_eq_true.1 (by decide : "graph".toList.all isUidChar = true)
    · exact hmap
  have hne : (if u = [] then "graph".toList else u) ≠ [] := by
    split_ifs with h
    · decide
    · exact h
  generalize (if u = [] then "graph".toList else u) = v at hall hne
  split_ifs with hd
  · refine ⟨by simp, fun c hc => ?_, fun c hc => ?_⟩
    · rcases List.mem_cons.1 hc with rfl | hc
      · rfl
      · exact hall c hc
    · cases hc
      rfl
  · refine ⟨hne, hall, fun c hc => ?_⟩
    rw [hc, Option.any_some] at hd
    exact Bool.eq_false_iff.2 hd

theorem length_uidBase_le (folded : List Char) : (uidBase folded).length ≤ maxUidLength := by
  unfold uidBase
  exact List.length_take_le _ _

namespace Context

theorem isUid_candidate {base : List Char} (h : IsUid base) (n : ℕ) :
    IsUid (candidate base n) where
  ne_nil := by simp [candidate]
  chars c hc := by
    unfold candidate at hc
    rcases List.mem_append.1 hc with hc | hc
    · exact h.chars c (List.mem_of_mem_take hc)
    · rcases List.mem_cons.1 hc with rfl | hc
      · rfl
      · exact isUidChar_of_mem_toDigits hc
  head c hc := by
    unfold candidate at hc
    rw [List.head?_append, List.head?_take] at hc
    split_ifs at hc with hz
    · cases hc
      rfl
    · cases hb : base.head? with
      | none => exact absurd (List.head?_eq_none_iff.1 hb) h.ne_nil
      | some d =>
        rw [hb] at hc
        cases hc
        exact h.head _ hb

/-- A candidate is short as long as its number has at most twenty-nine digits. -/
theorem length_candidate_le (base : List Char) {n : ℕ} (hn : n < 10 ^ 29) :
    (candidate base n).length ≤ maxUidLength := by
  have hd : (Nat.toDigits 10 n).length ≤ 29 := Nat.toDigits_length 10 n 29 (by norm_num) hn
  simp only [candidate, List.length_append, List.length_take, List.length_cons, maxUidLength]
  omega

/-- What stands behind the last underscore of a candidate is its number. -/
theorem takeWhile_reverse_candidate (base : List Char) (n : ℕ) :
    (candidate base n).reverse.takeWhile (· != '_') = (Nat.toDigits 10 n).reverse := by
  have hd : ∀ c ∈ (Nat.toDigits 10 n).reverse, (c != '_') = true := by
    intro c hc
    rw [bne_iff_ne]
    rintro rfl
    exact Nat.underscore_not_in_toDigits (List.mem_reverse.1 hc)
  simp only [candidate, List.reverse_append, List.reverse_cons, List.append_assoc,
    List.singleton_append]
  rw [List.takeWhile_append_of_pos hd, List.takeWhile_cons_of_neg (by simp), List.append_nil]

theorem candidate_injective (base : List Char) : Function.Injective (candidate base) := by
  intro m n h
  have hd : Nat.toDigits 10 m = Nat.toDigits 10 n := by
    rw [← List.reverse_inj, ← takeWhile_reverse_candidate base m, h, takeWhile_reverse_candidate]
  rw [← Nat.ofDigitChars_ten_toDigits (n := m), hd, Nat.ofDigitChars_ten_toDigits]

/-! ### The name for a base -/

/-- The name for a base when some names are taken: the base if it is free, else the candidate of
the least number from two on that is free. -/
def NameFor (taken : List (List Char)) (base u : List Char) : Prop :=
  base ∉ taken ∧ u = base ∨
    base ∈ taken ∧ ∃ n, 2 ≤ n ∧ u = candidate base n ∧ candidate base n ∉ taken ∧
      ∀ k, 2 ≤ k → k < n → candidate base k ∈ taken

theorem exists_free_candidate (taken : List (List Char)) (base : List Char) :
    ∃ k ≤ taken.length, candidate base (k + 2) ∉ taken := by
  -- otherwise there would be more distinct candidates than names taken
  by_contra! hall
  let cs := (List.range (taken.length + 1)).map fun k => candidate base (k + 2)
  have hnodup : cs.Nodup := by
    refine List.Nodup.map (fun a b hab => ?_) List.nodup_range
    have := candidate_injective base hab
    omega
  have hsub : cs ⊆ taken := by
    intro u hu
    obtain ⟨k, hk, rfl⟩ := List.mem_map.1 hu
    exact hall k (Nat.lt_succ_iff.1 (List.mem_range.1 hk))
  have hle := (hnodup.subperm hsub).length_le
  simp [cs] at hle

/-- A taken base gets the candidate of the least free number, which is at most two more than the
number of names taken. -/
theorem freeUid_of_mem {c : Context} {base : List Char} (h : base ∈ c.uids) :
    ∃ n, 2 ≤ n ∧ n ≤ c.uids.length + 2 ∧ c.freeUid base = candidate base n ∧
      candidate base n ∉ c.uids ∧ ∀ k, 2 ≤ k → k < n → candidate base k ∈ c.uids := by
  unfold freeUid
  rw [if_pos h, List.find?_map]
  cases hf : (List.range (c.uids.length + 1)).find?
      ((fun uid => !c.uids.contains uid) ∘ fun k => candidate base (k + 2)) with
  | none =>
    obtain ⟨k, hk, hfree⟩ := exists_free_candidate c.uids base
    have := List.find?_eq_none.1 hf k (List.mem_range.2 (Nat.lt_succ_iff.2 hk))
    simp [hfree] at this
  | some i =>
    obtain ⟨hi, hmem, hlt⟩ := List.find?_range_eq_some.1 hf
    refine ⟨i + 2, by omega, ?_, rfl, by simpa using hi, fun k hk hki => ?_⟩
    · have := List.mem_range.1 hmem
      omega
    · have := hlt (k - 2) (by omega)
      rw [Function.comp_apply, Nat.sub_add_cancel hk] at this
      simpa using this

/-- A context gives the name for the base. -/
theorem nameFor_freeUid (c : Context) (base : List Char) :
    NameFor c.uids base (c.freeUid base) := by
  by_cases h : base ∈ c.uids
  · obtain ⟨n, h2, -, heq, hfree, hleast⟩ := freeUid_of_mem h
    exact Or.inr ⟨h, n, h2, heq, hfree, hleast⟩
  · exact Or.inl ⟨h, if_neg h⟩

theorem NameFor.not_mem {taken : List (List Char)} {base u : List Char}
    (h : NameFor taken base u) : u ∉ taken := by
  obtain ⟨hb, rfl⟩ | ⟨-, n, -, rfl, hfree, -⟩ := h
  · exact hb
  · exact hfree

theorem isUid_freeUid (c : Context) {base : List Char} (h : IsUid base) :
    IsUid (c.freeUid base) := by
  obtain ⟨-, heq⟩ | ⟨-, n, -, heq, -⟩ := nameFor_freeUid c base
  · rw [heq]
    exact h
  · rw [heq]
    exact isUid_candidate h n

/-- Names are short as long as their numbers can be told apart in twenty-nine digits. -/
theorem length_freeUid_le (c : Context) {base : List Char} (h : base.length ≤ maxUidLength)
    (hc : c.uids.length + 2 < 10 ^ 29) : (c.freeUid base).length ≤ maxUidLength := by
  by_cases hm : base ∈ c.uids
  · obtain ⟨n, -, hn, heq, -⟩ := freeUid_of_mem hm
    rw [heq]
    exact length_candidate_le base (hn.trans_lt hc)
  · have heq : c.freeUid base = base := if_neg hm
    rw [heq]
    exact h

end Context
end Dot
end ApiDiagrams
