import ApiDiagrams.Proofs.Dot.Quoting

/-!
# Reading an escaped value

The inside of a quoted text is read in pairs: a backslash consumes the character after it, and the
text ends at the first quote that is not consumed. `escapeFrom` does not pair characters, it counts
the backslashes of a run. The two go through a value side by side: a backslash waits for what it
consumes exactly when the run that ends with it is odd.

A value may be any bytes, and so may be what follows it. Stray bytes are neither backslashes nor
quotes, but they are not written: U+FFFD stands for each of them.

* `inside?`, `unescape`: the inside of a quoted text, and the value that it stands for;
* `Completes`: a value run by run, with the runs that are lengthened;
* `completes_iff`: the completed value is the value with these runs lengthened;
* `inside?_escapeFrom`, `unescape_escapeFrom`: an escaped value is read as a whole and stands for
  the completed value;
* `completeFrom_completeFrom`, `escapeFrom_completeFrom`: completing a value a second time, and
  escaping a completed value;
* `safe_between_quotes`, `stray_byte_is_replaced`: what holds of every value, and what does not.
-/

namespace ApiDiagrams
namespace Dot

open Text (ByteUnit Raw)

/-! ### The inside of a quoted text -/

/-- The inside of a quoted text and what follows the quote that ends it. A backslash consumes the
character after it, and the first quote that is not consumed ends the text. -/
def inside? : List ByteUnit → Option (List ByteUnit × List ByteUnit)
  | [] => none
  | u :: rest =>
    if u = .char '"' then some ([], rest)
    else if u = .char '\\' then
      match rest with
      | [] => none
      | w :: rest => (inside? rest).map fun r => (u :: w :: r.1, r.2)
    else (inside? rest).map fun r => (u :: r.1, r.2)

/-- A text in which every pair of a backslash and a quote is the quote alone. -/
def unescape : List ByteUnit → List ByteUnit
  | [] => []
  | u :: rest =>
    if u = .char '\\' then
      match rest with
      | [] => [u]
      | w :: rest => (if w = .char '"' then [w] else [u, w]) ++ unescape rest
    else u :: unescape rest

@[simp] theorem inside?_quote (rest : List ByteUnit) :
    inside? (.char '"' :: rest) = some ([], rest) := by
  unfold inside?
  rw [if_pos rfl]

@[simp] theorem inside?_backslash (u : ByteUnit) (rest : List ByteUnit) :
    inside? (.char '\\' :: u :: rest) =
      (inside? rest).map fun r => (.char '\\' :: u :: r.1, r.2) := by
  simp [inside?]

theorem inside?_cons {u : ByteUnit} (hb : u ≠ .char '\\') (hq : u ≠ .char '"')
    (rest : List ByteUnit) :
    inside? (u :: rest) = (inside? rest).map fun r => (u :: r.1, r.2) := by
  rw [inside?.eq_def]
  simp only [if_neg hb, if_neg hq]

@[simp] theorem unescape_backslash (u : ByteUnit) (rest : List ByteUnit) :
    unescape (.char '\\' :: u :: rest) =
      (if u = .char '"' then [u] else [.char '\\', u]) ++ unescape rest := by
  simp [unescape]

theorem unescape_cons {u : ByteUnit} (hb : u ≠ .char '\\') (rest : List ByteUnit) :
    unescape (u :: rest) = u :: unescape rest := by
  rw [unescape.eq_def]
  simp only [if_neg hb]

/-- An escaped value is read as a whole: the quote behind it is the first that is not consumed. -/
theorem inside?_escapeFrom (odd : Bool) (v : List Char) (rest : List ByteUnit) :
    inside? (waiting odd ++ ((escapeFrom odd v).map .char ++ .char '"' :: rest)) =
      some (waiting odd ++ (escapeFrom odd v).map .char, rest) := by
  induction v generalizing odd with
  | nil => cases odd <;> simp [escapeFrom]
  | cons c v ih =>
    have hodd := ih true
    have heven := ih false
    simp only [waiting_true, waiting_false, List.nil_append, List.cons_append] at hodd heven
    by_cases hb : c = '\\'
    · subst hb
      -- the backslash waits, or it is consumed by the one that waited
      cases odd with
      | false => simpa [escapeFrom] using hodd
      | true => simp [escapeFrom, heven]
    · by_cases hq : c = '"'
      · subst hq
        cases odd with
        | false => simp [escapeFrom, heven]
        | true => simp [escapeFrom, heven]
      · have hcons := inside?_cons (u := .char c) (by simpa using hb) (by simpa using hq)
        cases odd with
        | false => simp [escapeFrom, hb, hq, hcons, heven]
        | true => simp [escapeFrom, hb, hq, heven]

theorem lossy_eq_iff {u : ByteUnit} {c : Char} (hc : c ≠ '\uFFFD') :
    u.lossy = c ↔ u = .char c := by
  cases u with
  | char d => simp [ByteUnit.lossy]
  | stray b => simpa [ByteUnit.lossy] using hc.symm

@[simp] theorem lossy_eq_backslash_iff {u : ByteUnit} : u.lossy = '\\' ↔ u = .char '\\' :=
  lossy_eq_iff (by decide)

@[simp] theorem lossy_eq_quote_iff {u : ByteUnit} : u.lossy = '"' ↔ u = .char '"' :=
  lossy_eq_iff (by decide)

/-- A unit as it is written. -/
def mended (u : ByteUnit) : ByteUnit := .char u.lossy

/-- An escaped value stands for the completed value, as far as that can be mended. -/
theorem unescape_escapeFrom (odd : Bool) (v : List ByteUnit) :
    unescape (waiting odd ++ (escapeFrom odd (v.map ByteUnit.lossy)).map .char) =
      waiting odd ++ (completeFrom odd v).map mended := by
  induction v generalizing odd with
  | nil => cases odd <;> simp [escapeFrom, completeFrom, unescape, mended, ByteUnit.lossy]
  | cons u v ih =>
    have hodd := ih true
    have heven := ih false
    simp only [waiting_true, waiting_false, List.nil_append, List.cons_append] at hodd heven
    by_cases hb : u = .char '\\'
    · subst hb
      cases odd with
      | false => simpa [escapeFrom, completeFrom, mended, ByteUnit.lossy] using hodd
      | true => simp [escapeFrom, completeFrom, mended, ByteUnit.lossy, heven]
    · by_cases hq : u = .char '"'
      · subst hq
        cases odd with
        | false => simp [escapeFrom, completeFrom, mended, ByteUnit.lossy, heven]
        | true => simp [escapeFrom, completeFrom, mended, ByteUnit.lossy, heven]
      · have hcons := unescape_cons (u := .char u.lossy) (by simpa using hb)
        cases odd with
        | false => simp [escapeFrom, completeFrom, mended, hb, hq, hcons, heven]
        | true => simp [escapeFrom, completeFrom, mended, hb, hq, heven]

/-! ### Runs of backslashes -/

/-- The second text is the first one with each odd run of backslashes directly before a quote or
the end lengthened by one. A rule takes the `k` backslashes at the front, if there are any, and the
character behind them. -/
inductive Completes : List ByteUnit → List ByteUnit → Prop
  | atEnd (k : ℕ) : Completes (List.replicate k (.char '\\'))
      (List.replicate (k + k % 2) (.char '\\'))
  | beforeQuote (k : ℕ) {v w : List ByteUnit} (rest : Completes v w) :
      Completes (List.replicate k (.char '\\') ++ .char '"' :: v)
        (List.replicate (k + k % 2) (.char '\\') ++ .char '"' :: w)
  | beforeOther (k : ℕ) {u : ByteUnit} (notBackslash : u ≠ .char '\\') (notQuote : u ≠ .char '"')
      {v w : List ByteUnit} (rest : Completes v w) :
      Completes (List.replicate k (.char '\\') ++ u :: v) (List.replicate k (.char '\\') ++ u :: w)

/-- A run only decides whether what stands before the next character is odd. -/
theorem completeFrom_run (j k : ℕ) (v : List ByteUnit) :
    completeFrom (decide (j % 2 = 1)) (List.replicate k (.char '\\') ++ v) =
      List.replicate k (.char '\\') ++ completeFrom (decide ((j + k) % 2 = 1)) v := by
  induction k generalizing j with
  | zero => simp
  | succ k ih =>
    have hflip : (!decide (j % 2 = 1)) = decide ((j + 1) % 2 = 1) := by
      rcases Nat.mod_two_eq_zero_or_one j with h | h
      · have h' : (j + 1) % 2 = 1 := by omega
        simp [h, h']
      · have h' : (j + 1) % 2 = 0 := by omega
        simp [h, h']
    have hsum : j + 1 + k = j + (k + 1) := by omega
    rw [List.replicate_succ, List.cons_append, List.cons_append, completeFrom, if_pos rfl, hflip,
      ih (j + 1), hsum]

theorem completeFrom_false_run (k : ℕ) (v : List ByteUnit) :
    completeFrom false (List.replicate k (.char '\\') ++ v) =
      List.replicate k (.char '\\') ++ completeFrom (decide (k % 2 = 1)) v := by
  simpa using completeFrom_run 0 k v

/-- A run is lengthened by one when it is odd. -/
theorem replicate_add_mod_two (k : ℕ) :
    List.replicate (k + k % 2) (.char '\\') =
      List.replicate k (.char '\\') ++ waiting (decide (k % 2 = 1)) := by
  rcases Nat.mod_two_eq_zero_or_one k with h | h
  · simp [h]
  · simp [h, List.replicate_succ']

theorem Completes.eq_completeFrom {v w : List ByteUnit} (h : Completes v w) :
    w = completeFrom false v := by
  induction h with
  | atEnd k =>
    have hrun := completeFrom_false_run k []
    rw [List.append_nil] at hrun
    rw [hrun, replicate_add_mod_two]
    by_cases hk : k % 2 = 1 <;> simp [completeFrom, hk]
  | beforeQuote k _ ih =>
    rw [completeFrom_false_run, replicate_add_mod_two, ih]
    by_cases hk : k % 2 = 1 <;> simp [completeFrom, hk]
  | beforeOther k hb hq _ ih =>
    rw [completeFrom_false_run, ih]
    simp [completeFrom, hb, hq]

/-- The induction is on what follows a run; a backslash makes the run longer and every other
character ends it. -/
theorem completes_run (k : ℕ) (v : List ByteUnit) :
    Completes (List.replicate k (.char '\\') ++ v)
      (List.replicate k (.char '\\') ++ completeFrom (decide (k % 2 = 1)) v) := by
  induction v generalizing k with
  | nil =>
    have hend := Completes.atEnd k
    rw [replicate_add_mod_two] at hend
    by_cases hk : k % 2 = 1 <;> simpa [completeFrom, hk] using hend
  | cons u v ih =>
    have hrest : Completes v (completeFrom false v) := by simpa using ih 0
    by_cases hb : u = .char '\\'
    · subst hb
      have hlonger := ih (k + 1)
      rw [← completeFrom_false_run] at hlonger ⊢
      rwa [List.replicate_succ', List.append_assoc, List.singleton_append] at hlonger
    · by_cases hq : u = .char '"'
      · subst hq
        have hquote := Completes.beforeQuote k hrest
        rw [replicate_add_mod_two] at hquote
        by_cases hk : k % 2 = 1 <;> simpa [completeFrom, hk] using hquote
      · simpa [completeFrom, hb, hq] using Completes.beforeOther k hb hq hrest

theorem completes_iff {v w : List ByteUnit} : Completes v w ↔ w = completeFrom false v := by
  constructor
  · exact Completes.eq_completeFrom
  · rintro rfl
    simpa using completes_run 0 v

/-! ### Completed values -/

theorem completeFrom_completeFrom (odd : Bool) (v : List ByteUnit) :
    completeFrom odd (completeFrom odd v) = completeFrom odd v := by
  induction v generalizing odd with
  | nil => cases odd <;> rfl
  | cons u v ih =>
    by_cases hb : u = .char '\\'
    · subst hb
      simp [completeFrom, ih]
    · by_cases hq : u = .char '"'
      · subst hq
        cases odd <;> simp [completeFrom, ih]
      · simp [completeFrom, hb, hq, ih]

theorem escapeFrom_completeFrom (odd : Bool) (v : List ByteUnit) :
    escapeFrom odd ((completeFrom odd v).map ByteUnit.lossy) =
      escapeFrom odd (v.map ByteUnit.lossy) := by
  induction v generalizing odd with
  | nil => cases odd <;> rfl
  | cons u v ih =>
    by_cases hb : u = .char '\\'
    · subst hb
      simp [escapeFrom, completeFrom, ByteUnit.lossy, ih]
    · by_cases hq : u = .char '"'
      · subst hq
        cases odd <;> simp [escapeFrom, completeFrom, ByteUnit.lossy, ih]
      · simp [escapeFrom, completeFrom, hb, hq, ih]

theorem not_hasOddRun_of_not_mem {v : Raw} (h : .char '\\' ∉ v.units) : ¬ HasOddRun v := by
  rintro ⟨before, k, after, hv, -, -⟩
  simp [hv, List.replicate_succ] at h

/-- Completing a value adds no stray byte and takes none away. -/
theorem map_mended_completeFrom_iff (odd : Bool) (v : List ByteUnit) :
    (completeFrom odd v).map mended = completeFrom odd v ↔ v.map mended = v := by
  induction v generalizing odd with
  | nil => cases odd <;> simp [completeFrom, mended, ByteUnit.lossy]
  | cons u v ih =>
    by_cases hb : u = .char '\\'
    · subst hb
      simp [completeFrom, mended, ByteUnit.lossy, ih]
    · by_cases hq : u = .char '"'
      · subst hq
        cases odd <;> simp [completeFrom, mended, ByteUnit.lossy, ih]
      · simp [completeFrom, hb, hq, ih]

theorem units_ofString_lossy (v : Raw) : (Raw.ofString v.lossy).units = v.units.map mended := by
  simp [Raw.lossy, mended, Function.comp_def]

theorem ofString_lossy_complete_iff (v : Raw) :
    Raw.ofString (complete v).lossy = complete v ↔ v.text?.isSome := by
  have hiff : ∀ r : Raw, Raw.ofString r.lossy = r ↔ r.units.map mended = r.units := by
    intro r
    rw [← units_ofString_lossy]
    exact ⟨congrArg Raw.units, fun h => by cases r; exact congrArg Raw.mk h⟩
  rw [← Raw.ofString_lossy_eq_iff, hiff, hiff]
  exact map_mended_completeFrom_iff false v.units

/-! ### Safety -/

/-- The value is safe between double quotes, and what it stands for there is the completed value
with U+FFFD for each stray byte, which is the completed value itself exactly if there is none. -/
structure SafeBetweenQuotes (v : Raw) : Prop where
  /-- Whatever follows, the text ends at the quote that was put behind the escaped value. -/
  ends : ∀ rest : Raw, inside? ((Raw.ofString (quoteValue v)).units ++ .char '"' :: rest.units) =
    some ((Raw.ofString (quoteValue v)).units, rest.units)
  stands : unescape (Raw.ofString (quoteValue v)).units =
    (Raw.ofString (complete v).lossy).units
  stands_exactly_iff : unescape (Raw.ofString (quoteValue v)).units = (complete v).units ↔
    v.text?.isSome
  completes : ∀ w : Raw, Completes v.units w.units ↔ w = complete v
  complete_complete : complete (complete v) = complete v
  quoteValue_complete : quoteValue (complete v) = quoteValue v
  complete_eq_self_iff : complete v = v ↔ ¬ HasOddRun v
  complete_of_not_mem : .char '\\' ∉ v.units → complete v = v

theorem unescape_quoteValue (v : Raw) : unescape (Raw.ofString (quoteValue v)).units =
    (Raw.ofString (complete v).lossy).units := by
  have h := unescape_escapeFrom false v.units
  rw [units_ofString_lossy, Raw.units_ofString, quoteValue, Raw.lossy, String.toList_ofList,
    String.toList_ofList]
  exact h

/-- Every value is safe between double quotes, and stands for the completed value exactly if it is
valid UTF-8. -/
theorem safe_between_quotes (v : Raw) : SafeBetweenQuotes v where
  ends rest := by
    have h := inside?_escapeFrom false v.lossy.toList rest.units
    simpa [quoteValue] using h
  stands := unescape_quoteValue v
  stands_exactly_iff := by
    rw [unescape_quoteValue, ← ofString_lossy_complete_iff]
    exact ⟨fun h => congrArg Raw.mk h, congrArg Raw.units⟩
  completes w := by
    rw [completes_iff, complete]
    exact ⟨fun h => congrArg Raw.mk h, congrArg Raw.units⟩
  complete_complete := by
    rw [complete, complete, completeFrom_completeFrom]
  quoteValue_complete := by
    have h := escapeFrom_completeFrom false v.units
    rw [quoteValue, quoteValue, Raw.lossy, Raw.lossy, String.toList_ofList, String.toList_ofList,
      complete, h]
  complete_eq_self_iff := Dot.complete_eq_self_iff v
  complete_of_not_mem h := (Dot.complete_eq_self_iff v).2 (not_hasOddRun_of_not_mem h)

/-- A value of one stray byte has no backslash, and what is read of it is not that byte. -/
theorem stray_byte_is_replaced :
    let v := Raw.ofBytes ⟨#[0xFF]⟩
    .char '\\' ∉ v.units ∧ complete v = v ∧ quoteValue v = "\uFFFD" ∧
      inside? ((Raw.ofString (quoteValue v)).units ++ [.char '"']) = some ([.char '\uFFFD'], []) ∧
      unescape [.char '\uFFFD'] ≠ (complete v).units := by
  decide +kernel

end Dot
end ApiDiagrams
