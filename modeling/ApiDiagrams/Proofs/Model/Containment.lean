import ApiDiagrams.Model
import ApiDiagrams.Proofs.Index.Table

/-!
# Containment

An entity lies in the module or class that its name without the last identifier names. One pass
over the index puts every entity into the lists of the one that it lies in, and marks modules with
submodules as packages.

* `isSubmodule`, `isMember`: one entity lies in another, by their names and kinds;
* `contained`: the entity of a name after some entities were put in their places;
* `tabulates_foldl_contain`: the index after the pass.
-/

namespace ApiDiagrams
namespace Model

variable {f : String → Entity} {place : String → EntityId} {names : List String} {ix : Index}

/-- The text of the name without its last identifier. -/
def parentText (n : String) : String := (Name.parse n).parent.text

/-- One module lies in another. -/
def isSubmodule (f : String → Entity) (p d : String) : Bool :=
  parentText d = p && (f d).kind = .module && (f p).kind = .module

/-- One entity lies in a module or a class, and is not a module in a module. -/
def isMember (f : String → Entity) (p d : String) : Bool :=
  parentText d = p && (f p).isNamespace && !((f d).kind = .module && (f p).kind = .module)

/-- The entity of a name after the entities of `ds` were put in their places. -/
def contained (f : String → Entity) (place : String → EntityId) (ds : List String) (n : String) :
    Entity :=
  { f n with
    isPackage := (f n).isPackage || ds.any (isSubmodule f n)
    submodules := (ds.filter (isSubmodule f n)).map place
    members := (ds.filter (isMember f n)).map place }

/-- The entities have no contents yet. -/
def Bare (f : String → Entity) : Prop := ∀ n, (f n).submodules = [] ∧ (f n).members = []

theorem contained_nil (h : Bare f) : contained f place [] = f := by
  funext n
  obtain ⟨hs, hm⟩ := h n
  cases hf : f n
  rw [hf] at hs hm
  simp only at hs hm
  simp [contained, hf, hs, hm]

theorem contained_concat (ds : List String) (d n : String) :
    contained f place (ds ++ [d]) n =
      { contained f place ds n with
        isPackage := (contained f place ds n).isPackage || isSubmodule f n d
        submodules := (contained f place ds n).submodules ++
          if isSubmodule f n d then [place d] else []
        members := (contained f place ds n).members ++
          if isMember f n d then [place d] else [] } := by
  simp only [contained, List.any_append, List.any_cons, List.any_nil, Bool.or_false,
    Bool.or_assoc, List.filter_append, List.map_append, List.filter_cons, List.filter_nil]
  split_ifs <;> rfl

theorem isNamespace_contained (ds : List String) (n : String) :
    (contained f place ds n).isNamespace = (f n).isNamespace := rfl

/-- An entity that lies elsewhere leaves another as it is. -/
theorem contained_concat_of_ne {ds : List String} {d n : String} (h : n ≠ parentText d) :
    contained f place (ds ++ [d]) n = contained f place ds n := by
  rw [contained_concat]
  simp [isSubmodule, isMember, Ne.symm h]

/-- A change to the parent of `d` alone that puts `d` into its place. -/
theorem tabulates_modify_parent {ds : List String} {d : String} {p : EntityId}
    (h : ix.Tabulates names (contained f place ds)) (hp : names[p]? = some (parentText d))
    {g : Entity → Entity}
    (hg : g (contained f place ds (parentText d)) = contained f place (ds ++ [d]) (parentText d)) :
    (ix.modify p g).Tabulates names (contained f place (ds ++ [d])) := by
  refine (h.modify hp ?_).congr fun n _ => ?_
  · rw [hg]
    rfl
  · by_cases hn : n = parentText d
    · rw [hn, Function.update_self, hg]
    · rw [Function.update_of_ne hn, contained_concat_of_ne hn]

/-- One entity is put in its place. -/
theorem tabulates_contain {ds : List String}
    (h : ix.Tabulates names (contained f place ds)) {i : EntityId} {d : String}
    (hi : names[i]? = some d) (hd : place d = i) :
    (contain ix i).Tabulates names (contained f place (ds ++ [d])) := by
  have hname : ix.get (ix.nameOf i).parent = ix.lookup (parentText d) := by
    rw [h.nameOf_eq hi]
    rfl
  unfold contain
  rw [hname]
  cases hp : ix.lookup (parentText d) with
  | none =>
    rw [h.lookup_eq_none_iff] at hp
    refine h.congr fun n hn => (contained_concat_of_ne ?_).symm
    rintro rfl
    exact hp hn
  | some p =>
    rw [h.lookup_eq_some_iff] at hp
    simp only [h.entity_eq hi, h.entity_eq hp]
    split_ifs with h1 h2
    · refine h.congr fun n _ => ?_
      by_cases hn : n = parentText d
      · -- what is no namespace is no module either
        have hspace : (f (parentText d)).isNamespace = false := by
          rw [isNamespace_contained] at h1
          simpa using h1
        have hmodule : (f (parentText d)).kind ≠ .module := by
          intro hk
          simp [Entity.isNamespace, hk] at hspace
        rw [hn, contained_concat]
        simp [isSubmodule, isMember, hspace, hmodule]
      · exact (contained_concat_of_ne hn).symm
    · refine tabulates_modify_parent h hp ?_
      have hboth : (f d).kind = .module ∧ (f (parentText d)).kind = .module := h2
      rw [contained_concat]
      simp [isSubmodule, isMember, hboth, hd]
    · refine tabulates_modify_parent h hp ?_
      have hspace : (f (parentText d)).isNamespace = true := by
        rw [isNamespace_contained] at h1
        simpa using h1
      have hboth : ¬ ((f d).kind = .module ∧ (f (parentText d)).kind = .module) := h2
      rw [contained_concat]
      simp [isSubmodule, isMember, hspace, hd, hboth]

/-- All entities are put in their places. -/
theorem tabulates_foldl_contain (h : ix.Tabulates names f) (hf : Bare f)
    (hp : ∀ i n, names[i]? = some n → place n = i) :
    (ix.listed.foldl contain ix).Tabulates names (contained f place names) := by
  have hrun : ∀ k ≤ names.length,
      ((List.range k).foldl contain ix).Tabulates names (contained f place (names.take k)) := by
    intro k
    induction k with
    | zero =>
      intro _
      rw [List.take_zero, contained_nil hf]
      exact h
    | succ k ih =>
      intro hk
      have hi : names[k]? = some names[k] := List.getElem?_eq_getElem hk
      rw [List.range_succ, List.foldl_append, List.take_add_one, hi]
      exact tabulates_contain (ih (Nat.le_of_succ_le hk)) hi (hp _ _ hi)
  rw [h.listed]
  have hall := hrun names.length le_rfl
  rwa [List.take_length] at hall

theorem profile_contain (ix : Index) (i : EntityId) : (contain ix i).profile = ix.profile := by
  unfold contain
  split
  · rfl
  · split_ifs <;> rfl

theorem profile_foldl_contain (l : List EntityId) (ix : Index) :
    (l.foldl contain ix).profile = ix.profile := by
  induction l generalizing ix with
  | nil => rfl
  | cons i l ih => rw [List.foldl_cons, ih, profile_contain]

end Model
end ApiDiagrams
