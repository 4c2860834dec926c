import ApiDiagrams.Proofs.Dot.Attributes
import Mathlib.Logic.Function.Basic

/-!
# Maps of attributes in memory

Attributes are kept in maps that can be changed in place. Whoever holds a map holds its address, so
that a change shows to everyone who holds the same one. A map that is handed over is copied, and the
copy is held by one element alone.

* `Holder`: the elements of drawings that hold a map, and the variables of those who draw;
* `Memory.read`, `Memory.give`, `Memory.edit`: a map as its holder sees it, a new one for a holder,
  and a change in place;
* `Memory.Unshared`: no map has two holders;
* `Memory.read_give`, `Memory.read_edit`, `Memory.read_editAll`: who sees what afterwards.
-/

namespace ApiDiagrams
namespace Dot

/-! ### Lists with one more element -/

theorem getElem?_concat {α : Type} (xs : List α) (x : α) (i : ℕ) :
    (xs ++ [x])[i]? = if i = xs.length then some x else xs[i]? := by
  rcases lt_trichotomy i xs.length with hi | rfl | hi
  · rw [List.getElem?_append_left hi, if_neg hi.ne]
  · simp
  · rw [List.getElem?_eq_none (by simpa using hi), List.getElem?_eq_none hi.le, if_neg hi.ne']

theorem modify_concat {α : Type} (xs : List α) (x : α) (f : α → α) :
    (xs ++ [x]).modify xs.length f = xs ++ [f x] := by
  induction xs with
  | nil => rfl
  | cons y xs ih => exact congrArg (y :: ·) ih

/-! ### Maps and their holders -/

/-- What holds a map in a graph, nodes apart: its defaults, and its edges by their places. -/
inductive Part
  | nodeDefaults
  | edgeDefaults
  | edge (e : ℕ)
  deriving DecidableEq, Repr

/-- What holds a map: a variable of those who draw, a node, or a part of a graph. -/
inductive Holder
  | own (k : ℕ)
  | node (n : ℕ)
  | part (g : ℕ) (p : Part)
  deriving DecidableEq, Repr

/-- The maps that have been made, by address, and the addresses that are held. -/
structure Memory where
  maps : List Attrs := []
  held : Holder → Option ℕ := fun _ => none

namespace Memory

/-- The map of a holder as it stands. -/
def read (m : Memory) (h : Holder) : Option Attrs := (m.held h).bind fun p => m.maps[p]?

/-- A copy of the map of a holder. Where there is no map, the copy is empty. -/
def copy (m : Memory) (source : Option Holder) : Attrs := (source.bind m.read).getD .empty

/-- Makes a new map for a holder. -/
def give (m : Memory) (h : Holder) (a : Attrs) : Memory where
  maps := m.maps ++ [a]
  held := Function.update m.held h (some m.maps.length)

/-- Changes the map of a holder in place. -/
def edit (m : Memory) (h : Holder) (f : Attrs → Attrs) : Memory :=
  match m.held h with
  | none => m
  | some p => { m with maps := m.maps.modify p f }

/-- Changes the maps of several holders, one after the other. -/
def editAll (m : Memory) (hs : List Holder) (f : Attrs → Attrs) : Memory :=
  hs.foldl (fun m h => m.edit h f) m

/-- No map has two holders. -/
structure Unshared (m : Memory) : Prop where
  bound : ∀ h p, m.held h = some p → p < m.maps.length
  alone : ∀ h h' p, m.held h = some p → m.held h' = some p → h = h'

theorem unshared_empty : Unshared {} := ⟨nofun, nofun⟩

variable {m : Memory}

@[simp] theorem held_edit (m : Memory) (h : Holder) (f : Attrs → Attrs) :
    (m.edit h f).held = m.held := by
  unfold edit
  split <;> rfl

theorem Unshared.give (hm : m.Unshared) (h : Holder) (a : Attrs) : (m.give h a).Unshared where
  bound h' p hp := by
    simp only [Memory.give, Function.update_apply, List.length_append, List.length_singleton] at hp ⊢
    split_ifs at hp
    · obtain rfl := Option.some.inj hp
      omega
    · exact (hm.bound h' p hp).trans (Nat.lt_succ_self _)
  alone h₁ h₂ p h₁p h₂p := by
    simp only [Memory.give, Function.update_apply] at h₁p h₂p
    -- the address of the new map is beyond those that were held before
    split_ifs at h₁p h₂p with h1 h2 h2
    · exact h1.trans h2.symm
    · obtain rfl := Option.some.inj h₁p
      exact absurd (hm.bound h₂ _ h₂p) (lt_irrefl _)
    · obtain rfl := Option.some.inj h₂p
      exact absurd (hm.bound h₁ _ h₁p) (lt_irrefl _)
    · exact hm.alone h₁ h₂ p h₁p h₂p

theorem Unshared.edit (hm : m.Unshared) (h : Holder) (f : Attrs → Attrs) :
    (m.edit h f).Unshared where
  bound h' p hp := by
    rw [held_edit] at hp
    have hlength : (m.edit h f).maps.length = m.maps.length := by
      unfold Memory.edit
      split
      · rfl
      · exact List.length_modify _ _ _
    rw [hlength]
    exact hm.bound h' p hp
  alone h₁ h₂ p h₁p h₂p := by
    rw [held_edit] at h₁p h₂p
    exact hm.alone h₁ h₂ p h₁p h₂p

/-- A map that is changed as soon as it is made could have been made so. -/
theorem edit_give (m : Memory) (h : Holder) (a : Attrs) (f : Attrs → Attrs) :
    (m.give h a).edit h f = m.give h (f a) := by
  simp [edit, give, modify_concat]

/-- Nobody else sees a map that was made for one holder. -/
theorem read_give (hm : m.Unshared) (h : Holder) (a : Attrs) :
    (m.give h a).read = Function.update m.read h (some a) := by
  funext h'
  unfold read give
  by_cases hh : h' = h
  · subst hh
    simp
  · simp only [Function.update_of_ne hh]
    cases hp : m.held h' with
    | none => rfl
    | some p => exact List.getElem?_append_left (hm.bound h' p hp)

/-- Nobody else sees a change to the map of one holder. -/
theorem read_edit (hm : m.Unshared) (h : Holder) (f : Attrs → Attrs) :
    (m.edit h f).read = Function.update m.read h ((m.read h).map f) := by
  funext h'
  unfold read edit
  cases hp : m.held h with
  | none =>
    by_cases hh : h' = h
    · subst hh
      simp [hp]
    · rw [Function.update_of_ne hh]
  | some p =>
    by_cases hh : h' = h
    · subst hh
      simp [hp, List.getElem?_modify]
    · rw [Function.update_of_ne hh]
      refine Option.bind_congr fun q hq => ?_
      have hne : p ≠ q := fun heq => hh (hm.alone h' h q hq (heq ▸ hp))
      simp [hne]

theorem Unshared.editAll (hm : m.Unshared) (hs : List Holder) (f : Attrs → Attrs) :
    (m.editAll hs f).Unshared := by
  unfold Memory.editAll
  induction hs generalizing m with
  | nil => exact hm
  | cons h hs ih => exact ih (hm.edit h f)

/-- Changing the maps of several holders once each is seen by them and by nobody else. -/
theorem read_editAll (hm : m.Unshared) {hs : List Holder} (hnodup : hs.Nodup) (f : Attrs → Attrs)
    (h : Holder) : (m.editAll hs f).read h = if h ∈ hs then (m.read h).map f else m.read h := by
  unfold editAll
  induction hs generalizing m with
  | nil => rfl
  | cons h' hs ih =>
    obtain ⟨hnot, hnodup⟩ := List.nodup_cons.1 hnodup
    rw [List.foldl_cons, ih (hm.edit h' f) hnodup, read_edit hm, Function.update_apply]
    by_cases hh : h = h'
    · subst hh
      simp [hnot]
    · simp [hh]

end Memory
end Dot
end ApiDiagrams
