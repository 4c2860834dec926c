import Mathlib.Tactic

/-!
# Passes that may fail

A pass goes through a list and changes a state with each element, until an element is refused.

* `bind_eq_ok_iff`, `bind_eq_error_iff`: one thing after another;
* `mapM_eq_ok_iff`, `exists_mapM_iff`: the same thing for each element of a list;
* `foldlM_keeps`: a pass keeps what its steps keep;
* `foldlM_pass`: a pass succeeds exactly when every element is good after those before it, and
  leaves behind what its steps keep;
* `foldlM_collect`: a pass in which the state takes up one element after the other.
-/

namespace ApiDiagrams

variable {α β ε : Type} {step : β → α → Except ε β}

theorem bind_eq_ok_iff {γ : Type} {x : Except ε α} {f : α → Except ε γ} {c : γ} :
    x >>= f = .ok c ↔ ∃ a, x = .ok a ∧ f a = .ok c := by
  cases x with
  | error e => simp [bind, Except.bind]
  | ok a => simp [bind, Except.bind]

theorem bind_eq_error_iff {γ : Type} {x : Except ε α} {f : α → Except ε γ} {e : ε} :
    x >>= f = .error e ↔ x = .error e ∨ ∃ a, x = .ok a ∧ f a = .error e := by
  cases x with
  | error e' => simp [bind, Except.bind]
  | ok a => simp [bind, Except.bind]

/-- A list is gone through when each of its elements has a result, and the results come in order. -/
theorem mapM_eq_ok_iff {γ : Type} {f : α → Except ε γ} {l : List α} {results : List γ} :
    l.mapM f = .ok results ↔ List.Forall₂ (fun x y => f x = .ok y) l results := by
  induction l generalizing results with
  | nil =>
    rw [List.mapM_nil, List.forall₂_nil_left_iff]
    exact ⟨fun h => (Except.ok.inj h).symm, fun h => congrArg Except.ok h.symm⟩
  | cons x l ih =>
    rw [List.mapM_cons, bind_eq_ok_iff, List.forall₂_cons_left_iff]
    constructor
    · rintro ⟨y, hy, h⟩
      obtain ⟨ys, hys, h⟩ := bind_eq_ok_iff.1 h
      exact ⟨y, ys, hy, ih.1 hys, (Except.ok.inj h).symm⟩
    · rintro ⟨y, ys, hy, hys, rfl⟩
      exact ⟨y, hy, bind_eq_ok_iff.2 ⟨ys, ih.2 hys, rfl⟩⟩

theorem exists_mapM_iff {γ : Type} {f : α → Except ε γ} {l : List α} :
    (∃ results, l.mapM f = .ok results) ↔ ∀ x ∈ l, ∃ y, f x = .ok y := by
  induction l with
  | nil => exact ⟨fun _ => by simp, fun _ => ⟨[], rfl⟩⟩
  | cons x l ih =>
    rw [List.forall_mem_cons, ← ih]
    simp only [mapM_eq_ok_iff, List.forall₂_cons_left_iff]
    constructor
    · rintro ⟨_, y, ys, hy, hys, -⟩
      exact ⟨⟨y, hy⟩, ys, hys⟩
    · rintro ⟨⟨y, hy⟩, ys, hys⟩
      exact ⟨y :: ys, y, ys, hy, hys, rfl⟩

/-- A pass keeps what each of its steps keeps. -/
theorem foldlM_keeps {P : β → Prop}
    (hstep : ∀ b x b', P b → step b x = .ok b' → P b') {l : List α} {b b' : β} (hb : P b)
    (h : l.foldlM step b = .ok b') : P b' := by
  induction l generalizing b with
  | nil =>
    cases h
    exact hb
  | cons x l ih =>
    obtain ⟨c, hc, h⟩ := bind_eq_ok_iff.1 h
    exact ih (hstep b x c hb hc) h

section Pass

variable {good : List α → α → Prop} {P : List α → β → Prop} {l : List α}

/-- The elements that are left, after those that are done: if they pass, they were good. -/
theorem keeps_of_foldlM
    (hok : ∀ done x rest b, l = done ++ x :: rest → P done b → good done x →
      ∃ b', step b x = .ok b' ∧ P (done ++ [x]) b')
    (hgood : ∀ done x rest b b', l = done ++ x :: rest → P done b → step b x = .ok b' →
      good done x)
    {rest done : List α} {b b' : β} (hl : l = done ++ rest) (hb : P done b)
    (hf : rest.foldlM step b = .ok b') :
    P l b' ∧ ∀ mid x after, rest = mid ++ x :: after → good (done ++ mid) x := by
  induction rest generalizing done b with
  | nil =>
    cases hf
    rw [List.append_nil] at hl
    exact ⟨hl ▸ hb, fun mid x after hr => by simp at hr⟩
  | cons y rest ih =>
    rw [List.foldlM_cons, bind_eq_ok_iff] at hf
    obtain ⟨b₁, hb₁, hf⟩ := hf
    have hy := hgood done y rest b b₁ hl hb hb₁
    -- `hok` gives a state after `y` that is kept; it is the one that the pass goes on with
    obtain ⟨b₂, hb₂, hP⟩ := hok done y rest b hl hb hy
    rw [hb₁, Except.ok.injEq] at hb₂
    subst hb₂
    obtain ⟨hl', hmid⟩ := ih (by rw [hl, List.append_cons]) hP hf
    refine ⟨hl', fun mid x after hr => ?_⟩
    cases mid with
    | nil =>
      rw [List.nil_append, List.cons.injEq] at hr
      rw [← hr.1, List.append_nil]
      exact hy
    | cons z mid =>
      rw [List.cons_append, List.cons.injEq] at hr
      have hx := hmid mid x after hr.2
      rwa [List.append_assoc, List.singleton_append, hr.1] at hx

/-- Good elements pass, whatever was done before. -/
theorem exists_foldlM
    (hok : ∀ done x rest b, l = done ++ x :: rest → P done b → good done x →
      ∃ b', step b x = .ok b' ∧ P (done ++ [x]) b')
    (hall : ∀ done x rest, l = done ++ x :: rest → good done x)
    {rest done : List α} {b : β} (hl : l = done ++ rest) (hb : P done b) :
    ∃ b', rest.foldlM step b = .ok b' := by
  induction rest generalizing done b with
  | nil => exact ⟨b, rfl⟩
  | cons y rest ih =>
    obtain ⟨b₁, hb₁, hP⟩ := hok done y rest b hl hb (hall done y rest hl)
    obtain ⟨b₂, hb₂⟩ := ih (by rw [hl, List.append_cons]) hP
    refine ⟨b₂, ?_⟩
    rw [List.foldlM_cons, hb₁]
    exact hb₂

/-- A pass succeeds exactly when every element is good after those before it, and leaves behind
what the steps keep. -/
theorem foldlM_pass {b : β} (h : P [] b)
    (hok : ∀ done x rest b, l = done ++ x :: rest → P done b → good done x →
      ∃ b', step b x = .ok b' ∧ P (done ++ [x]) b')
    (hgood : ∀ done x rest b b', l = done ++ x :: rest → P done b → step b x = .ok b' →
      good done x) :
    ((∃ b', l.foldlM step b = .ok b') ↔ ∀ done x rest, l = done ++ x :: rest → good done x) ∧
      ∀ b', l.foldlM step b = .ok b' → P l b' := by
  refine ⟨⟨?_, fun hall => exists_foldlM hok hall rfl h⟩, fun b' hf => ?_⟩
  · rintro ⟨b', hf⟩
    exact (keeps_of_foldlM hok hgood rfl h hf).2
  · exact (keeps_of_foldlM hok hgood rfl h hf).1

end Pass

/-- A pass in which the state takes up every element that it meets. -/
theorem foldlM_collect {σ : Type} {step : σ → α → Option σ} {r : List α → σ} {p : α → Prop}
    (hstep : ∀ read x, p x → step (r read) x = some (r (read ++ [x]))) {l : List α}
    (h : ∀ x ∈ l, p x) (read : List α) : l.foldlM step (r read) = some (r (read ++ l)) := by
  induction l generalizing read with
  | nil => rw [List.append_nil, List.foldlM_nil, Option.pure_def]
  | cons x l ih =>
    rw [List.foldlM_cons, hstep read x (h x List.mem_cons_self), Option.bind_eq_bind,
      Option.bind_some, ih fun y hy => h y (List.mem_cons_of_mem _ hy), List.append_assoc,
      List.singleton_append]

theorem forall_split_iff {good : α → Prop} {l : List α} :
    (∀ done x rest, l = done ++ x :: rest → good x) ↔ ∀ x ∈ l, good x := by
  constructor
  · intro h x hx
    obtain ⟨done, rest, hl⟩ := List.append_of_mem hx
    exact h done x rest hl
  · rintro h done x rest rfl
    exact h x (by simp)

end ApiDiagrams
