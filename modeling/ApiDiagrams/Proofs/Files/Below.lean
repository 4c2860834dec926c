import ApiDiagrams.Proofs.Files.Path
import ApiDiagrams.Proofs.Text.Utf8

/-!
# Paths that lead on

A relative path without a way back, joined to a base, leads on from the base: nothing of the base is
worked off, whatever the base is, and the components of the path that do not stay are added to it.

* `steps`: the components of a path that lead somewhere;
* `Extends`: a path leads on from a base;
* `Forward`: a relative path without a way back;
* `extends_join`: such a path leads on from every base that it is joined to;
* `forward_of_chars`: two dots nowhere, and no slash at the front, are enough for that.
-/

namespace ApiDiagrams
namespace Path

/-- The components of a path that lead somewhere: a dot stays where it is. -/
def steps (path : String) : List String := (components path).filter (· ≠ ".")

/-- A path leads on from a base. The steps of the clean base come first, none of the others leads
back, and without others the path is the clean base itself. -/
structure Extends (base path : String) (more : List String) : Prop where
  isAbsolute : isAbsolute path = isAbsolute base
  steps : steps path = steps (clean base) ++ more
  forward : ".." ∉ more
  eq_clean : more = [] → path = clean base

/-- A relative path without a way back. -/
structure Forward (path : String) : Prop where
  ne_empty : path ≠ ""
  relative : isAbsolute path = false
  dots : ".." ∉ components path

/-! ### Steps of clean paths -/

variable {absolute : Bool} {done : List String}

theorem Settled.dot_not_mem (h : Settled absolute done) : "." ∉ done := by
  induction done with
  | nil => exact List.not_mem_nil
  | cons c done ih =>
    intro hdot
    rcases List.mem_cons.1 hdot with rfl | hdot
    · have hlen := congrArg List.length h.1
      simp [Path.push] at hlen
    · exact ih h.2 hdot

/-- The steps of a clean path are all that is left of its components. -/
theorem steps_clean (path : String) : steps (clean path) = (trail path).reverse := by
  have hdot : "." ∉ (trail path).reverse := fun h =>
    (settled_trail path).dot_not_mem (List.mem_reverse.1 h)
  rw [steps, components_clean]
  split_ifs with h
  · simp [h.2]
  · rw [List.filter_eq_self]
    intro c hc
    rw [decide_eq_true_eq]
    rintro rfl
    exact hdot hc

/-- Without a way back every step is added. -/
theorem foldl_push_forward {cs : List String} (h : ".." ∉ cs) :
    cs.foldl (push absolute) done = (cs.filter (· ≠ ".")).reverse ++ done := by
  induction cs generalizing done with
  | nil => rfl
  | cons c cs ih =>
    have hc : c ≠ ".." := fun hc => h (hc ▸ List.mem_cons_self)
    rw [List.foldl_cons, ih fun hm => h (List.mem_cons_of_mem _ hm)]
    by_cases hdot : c = "."
    · simp [push, hdot]
    · simp [push_of_ne hdot hc, hdot]

/-! ### Joining -/

variable {base path : String}

theorem join_empty_left (hp : path ≠ "") : join ["", path] = clean path := by
  simp [join, hp]

namespace Forward

variable (h : Forward path)
include h

theorem isAbsolute_join : isAbsolute (join [base, path]) = isAbsolute base := by
  by_cases hb : base = ""
  · rw [hb, join_empty_left h.ne_empty, isAbsolute_clean, h.relative]
    decide
  · rw [join_pair hb h.ne_empty, isAbsolute_clean, String.append_assoc, isAbsolute_append hb]

/-- What is left of the base stays, and the steps of the path are added. -/
theorem trail_join : trail (join [base, path]) = (Path.steps path).reverse ++ trail base := by
  by_cases hb : base = ""
  · rw [hb, join_empty_left h.ne_empty, trail_clean, trail, foldl_push_forward h.dots]
    rfl
  · have habs : isAbsolute (base ++ "/" ++ path) = isAbsolute base := by
      rw [String.append_assoc, isAbsolute_append hb]
    rw [join_pair hb h.ne_empty, trail_clean, trail, habs, components_append, List.foldl_append,
      foldl_push_forward h.dots]
    rfl

theorem clean_join : clean (join [base, path]) = join [base, path] := by
  by_cases hb : base = ""
  · rw [hb, join_empty_left h.ne_empty, clean_clean]
  · rw [join_pair hb h.ne_empty, clean_clean]

/-- The path leads on from every base. -/
theorem extends_join (base : String) : Extends base (join [base, path]) (Path.steps path) where
  isAbsolute := h.isAbsolute_join
  steps := by
    rw [← h.clean_join, steps_clean, steps_clean, h.trail_join, List.reverse_append,
      List.reverse_reverse]
  forward hdots := h.dots (List.mem_of_mem_filter hdots)
  eq_clean hnil := by
    rw [← h.clean_join]
    exact clean_congr h.isAbsolute_join (by rw [h.trail_join, hnil, List.reverse_nil,
      List.nil_append])

end Forward

/-- A path without a slash makes at most one step. -/
theorem length_steps_le (h : '/' ∉ path.toList) : (steps path).length ≤ 1 := by
  by_cases hne : path = ""
  · subst hne
    decide
  · rw [steps, IsPiece.components ⟨hne, h⟩]
    exact List.length_filter_le _ _

/-- Two dots nowhere, and no slash at the front, make a path lead forward. -/
theorem forward_of_chars (hne : path ≠ "") (hslash : ¬ ['/'] <+: path.toList)
    (hdots : ¬ ['.', '.'] <:+: path.toList) : Forward path where
  ne_empty := hne
  relative := by
    rw [Bool.eq_false_iff, isAbsolute, Ne, Text.startsWith_iff]
    exact hslash
  dots h := by
    simp only [components, List.mem_map, List.mem_filter] at h
    obtain ⟨piece, ⟨hpiece, -⟩, hof⟩ := h
    obtain rfl : piece = ['.', '.'] := String.ofList_injective hof
    exact hdots (Text.infix_of_mem_splitOn hpiece)

end Path
end ApiDiagrams
