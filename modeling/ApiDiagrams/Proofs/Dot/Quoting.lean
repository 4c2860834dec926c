import ApiDiagrams.Dot.Attrs
import Mathlib.Tactic

/-!
# Values between double quotes

A value cannot end in an odd run of backslashes, nor have one before a quote, once it stands between
double quotes: the last backslash would swallow the quote. `escapeFrom` therefore lengthens such a
run by one, and what can be read back is the value with these runs completed. Who reads the graph
language also takes a line feed behind an odd run, and the last backslash of that run, for the
continuation of a line, and drops both.

* `completeFrom`, `complete`: a value with its odd runs completed;
* `OddRun`, `HasOddRun`, `HasContinuation`: an odd run of backslashes, and what stands behind it;
* `complete_eq_self_iff`: a value without such a run is complete already;
* `joinLines`, `restored`: a value without continuations of lines, and as it is read back.
-/

namespace ApiDiagrams
namespace Dot

open Text (ByteUnit Raw)

/-- A value with every odd run of backslashes before a quote or at the end lengthened by one. `odd`
says that an odd run stands before. -/
def completeFrom : (odd : Bool) → List ByteUnit → List ByteUnit
  | odd, [] => if odd then [.char '\\'] else []
  | odd, u :: rest =>
    if u = .char '\\' then .char '\\' :: completeFrom (!odd) rest
    else if u = .char '"' then
      (if odd then [.char '\\', .char '"'] else [.char '"']) ++ completeFrom false rest
    else u :: completeFrom false rest

/-- A value as it can stand between double quotes. -/
def complete (value : Raw) : Raw := ⟨completeFrom false value.units⟩

/-- An odd run of backslashes stands where `behind` holds of what follows it. -/
def OddRun (behind : List ByteUnit → Prop) (v : List ByteUnit) : Prop :=
  ∃ before k after, v = before ++ (List.replicate (2 * k + 1) (.char '\\') ++ after) ∧
    before.getLast? ≠ some (.char '\\') ∧ behind after

/-- A quote comes next, or nothing does. -/
def AtQuoteOrEnd (after : List ByteUnit) : Prop := after = [] ∨ after.head? = some (.char '"')

/-- A line feed comes next. -/
def AtLineFeed (after : List ByteUnit) : Prop := after.head? = some (.char '\n')

/-- An odd run of backslashes stands before a quote or at the end. -/
def HasOddRun (value : Raw) : Prop := OddRun AtQuoteOrEnd value.units

/-- An odd run of backslashes stands before a line feed. -/
def HasContinuation (value : Raw) : Prop := OddRun AtLineFeed value.units

/-! ### Runs at the front -/

section Runs

variable {behind : List ByteUnit → Prop} {v : List ByteUnit}

theorem not_oddRun_nil : ¬ OddRun behind [] := by
  rintro ⟨before, k, after, h, -⟩
  simp [List.replicate_succ] at h

theorem oddRun_backslash (h : behind v) : OddRun behind (.char '\\' :: v) :=
  ⟨[], 0, v, rfl, by simp, h⟩

/-- A run in what follows is a run in the whole when the front does not lengthen it. -/
theorem OddRun.append_left (h : OddRun behind v) (front : List ByteUnit)
    (hf : front.getLast? ≠ some (.char '\\')) : OddRun behind (front ++ v) := by
  obtain ⟨before, k, after, rfl, hb, ha⟩ := h
  refine ⟨front ++ before, k, after, by simp, ?_, ha⟩
  rw [List.getLast?_append]
  cases hl : before.getLast? with
  | none => simpa using hf
  | some u => simpa [hl] using hb

theorem oddRun_cons_iff {u : ByteUnit} (hu : u ≠ .char '\\') :
    OddRun behind (u :: v) ↔ OddRun behind v := by
  refine ⟨?_, fun h => h.append_left [u] (by simpa using hu)⟩
  rintro ⟨before, k, after, h, hb, ha⟩
  cases before with
  | nil =>
    rw [List.nil_append, List.replicate_succ, List.cons_append, List.cons.injEq] at h
    exact absurd h.1 hu
  | cons x before =>
    rw [List.cons_append, List.cons.injEq] at h
    refine ⟨before, k, after, h.2, fun hl => hb ?_, ha⟩
    rw [List.getLast?_cons, hl, Option.getD_some]

theorem oddRun_backslash_cons_iff {u : ByteUnit} (hu : ¬ behind (u :: v)) :
    OddRun behind (.char '\\' :: u :: v) ↔ OddRun behind v := by
  constructor
  · rintro ⟨before, k, after, h, hb, ha⟩
    match before, h, hb with
    | [], h, _ =>
      cases k with
      | zero =>
        -- a run of one backslash ends at `u`
        simp only [List.nil_append, Nat.mul_zero, Nat.zero_add, List.replicate_one,
          List.singleton_append, List.cons.injEq, true_and] at h
        subst h
        exact absurd ha hu
      | succ k =>
        rw [show 2 * (k + 1) + 1 = 2 * k + 1 + 1 + 1 by ring, List.replicate_succ,
          List.replicate_succ] at h
        simp only [List.nil_append, List.cons_append, List.cons.injEq, true_and] at h
        exact ⟨[], k, after, h.2, by simp, ha⟩
    | [x], h, hb =>
      simp only [List.singleton_append, List.cons.injEq] at h
      exact absurd (congrArg some h.1.symm) hb
    | x :: y :: before, h, hb =>
      simp only [List.cons_append, List.cons.injEq] at h
      refine ⟨before, k, after, h.2.2, fun hl => hb ?_, ha⟩
      rw [List.getLast?_cons, List.getLast?_cons, hl, Option.getD_some, Option.getD_some]
  · intro h
    by_cases hb : u = .char '\\'
    · subst hb
      obtain ⟨before, k, after, rfl, hb, ha⟩ := h
      cases before with
      | nil =>
        refine ⟨[], k + 1, after, ?_, by simp, ha⟩
        rw [show 2 * (k + 1) + 1 = 2 * k + 1 + 1 + 1 by ring]
        simp [List.replicate_succ]
      | cons x before =>
        refine ⟨.char '\\' :: .char '\\' :: x :: before, k, after, by simp, ?_, ha⟩
        rw [List.getLast?_cons_cons, List.getLast?_cons_cons]
        exact hb
    · exact h.append_left [.char '\\', u] (by simpa using hb)

end Runs

/-! ### Complete values -/

/-- The backslash that waits for the character which it consumes, when the run before is odd. -/
def waiting (odd : Bool) : List ByteUnit := if odd then [.char '\\'] else []

@[simp] theorem waiting_true : waiting true = [.char '\\'] := rfl

@[simp] theorem waiting_false : waiting false = [] := rfl

theorem completeFrom_eq_self_iff (odd : Bool) (v : List ByteUnit) :
    completeFrom odd v = v ↔ ¬ OddRun AtQuoteOrEnd (waiting odd ++ v) := by
  induction v generalizing odd with
  | nil =>
    cases odd with
    | false => simpa [completeFrom] using not_oddRun_nil
    | true => simpa [completeFrom] using oddRun_backslash (Or.inl rfl)
  | cons u v ih =>
    have heven : completeFrom false v = v ↔ ¬ OddRun AtQuoteOrEnd v := ih false
    by_cases hb : u = .char '\\'
    · subst hb
      have hbackslash : ¬ AtQuoteOrEnd (.char '\\' :: v) := by simp [AtQuoteOrEnd]
      cases odd with
      | false => simpa [completeFrom] using ih true
      | true => simpa [completeFrom, oddRun_backslash_cons_iff hbackslash] using heven
    · by_cases hq : u = .char '"'
      · subst hq
        cases odd with
        | false => simpa [completeFrom, oddRun_cons_iff hb] using heven
        | true =>
          simpa [completeFrom] using oddRun_backslash (v := .char '"' :: v) (Or.inr rfl)
      · have hother : ¬ AtQuoteOrEnd (u :: v) := by simp [AtQuoteOrEnd, hq]
        cases odd with
        | false => simpa [completeFrom, hb, hq, oddRun_cons_iff hb] using heven
        | true => simpa [completeFrom, hb, hq, oddRun_backslash_cons_iff hother] using heven

theorem complete_eq_self_iff (v : Raw) : complete v = v ↔ ¬ HasOddRun v := by
  obtain ⟨units⟩ := v
  rw [complete, Raw.mk.injEq]
  exact completeFrom_eq_self_iff false units

/-! ### Values as they are read back -/

/-- A text without the continuations of its lines: a backslash consumes what stands behind it, and
goes away with a line feed. -/
def joinLines : List ByteUnit → List ByteUnit
  | [] => []
  | u :: rest =>
    if u = .char '\\' then
      match rest with
      | [] => [u]
      | w :: rest => if w = .char '\n' then joinLines rest else u :: w :: joinLines rest
    else u :: joinLines rest

@[simp] theorem joinLines_nil : joinLines [] = [] := rfl

@[simp] theorem joinLines_backslash (u : ByteUnit) (rest : List ByteUnit) :
    joinLines (.char '\\' :: u :: rest) =
      if u = .char '\n' then joinLines rest else .char '\\' :: u :: joinLines rest := by
  simp [joinLines]

theorem joinLines_cons {u : ByteUnit} (hu : u ≠ .char '\\') (rest : List ByteUnit) :
    joinLines (u :: rest) = u :: joinLines rest := by
  rw [joinLines.eq_def]
  simp only [if_neg hu]

theorem joinLines_eq_self {v : List ByteUnit} (h : ¬ OddRun AtLineFeed v) : joinLines v = v := by
  fun_induction joinLines v with
  | case1 => rfl
  | case2 => rfl
  | case3 rest ih =>
    have hline : AtLineFeed (.char '\n' :: rest) := rfl
    exact absurd (oddRun_backslash hline) h
  | case4 u rest hu ih =>
    have hother : ¬ AtLineFeed (u :: rest) := by simpa [AtLineFeed] using hu
    rw [ih ((oddRun_backslash_cons_iff hother).not.1 h)]
  | case5 u rest hu ih => rw [ih ((oddRun_cons_iff hu).not.1 h)]

/-- A value as it is read back: completed, and without continuations of lines. -/
def restored (value : String) : String := Raw.lossy ⟨joinLines (complete value).units⟩

/-- A value is read back as it is when no odd run of its backslashes stands before a quote, before a
line feed or at the end. -/
theorem restored_eq_self {v : String} (hrun : ¬ HasOddRun v) (hline : ¬ HasContinuation v) :
    restored v = v := by
  rw [restored, (complete_eq_self_iff v).2 hrun, joinLines_eq_self hline]
  exact Raw.lossy_ofString v

example : restored "two\\\nlines" = "twolines" := by decide +kernel

end Dot
end ApiDiagrams
