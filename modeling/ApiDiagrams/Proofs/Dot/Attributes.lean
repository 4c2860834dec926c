import ApiDiagrams.Dot.Graph
import Mathlib.Data.String.Basic
import Mathlib.Tactic

/-!
# Attributes as finite maps

`Attrs` keeps its entries in a list. Whatever is done to attributes leaves the keys of that list
strictly increasing, so that the list is the graph of a finite map and is the only such list.

* `Attrs.Ordered`: the keys strictly increase;
* `Attrs.get?_insert`, `Attrs.get?_erase`: the map after a change, with no assumption on the order;
* `Attrs.Write`, `Attrs.write`: one change to attributes, and what it does;
* `Edge.get?_portAttrs`: the attributes of an edge with the ports of its ends;
* `Graph.Ordered`: all attributes of a graph are finite maps.
-/

namespace ApiDiagrams
namespace Dot
namespace Attrs

/-- The keys strictly increase. -/
def Ordered (a : Attrs) : Prop := a.entries.Pairwise fun x y => x.1 < y.1

instance (a : Attrs) : Decidable a.Ordered := inferInstanceAs (Decidable (List.Pairwise _ _))

theorem ordered_empty : empty.Ordered := List.Pairwise.nil

theorem lookup_cons_ite {β : Type} (k k' : String) (v : β) (l : List (String × β)) :
    ((k', v) :: l).lookup k = if k = k' then some v else l.lookup k := by
  rw [List.lookup_cons]
  by_cases h : k = k'
  · rw [if_pos h, h, beq_self_eq_true]
  · rw [if_neg h, beq_eq_false_iff_ne.2 h]

/-! ### Insertion -/

theorem mem_insertInto {key value : String} {l : List (String × String)} {e : String × String}
    (h : e ∈ insertInto key value l) : e = (key, value) ∨ e ∈ l := by
  induction l with
  | nil => exact Or.inl (List.mem_singleton.1 h)
  | cons x l ih =>
    obtain ⟨k, v⟩ := x
    simp only [insertInto] at h
    split_ifs at h with h1 h2
    · rcases List.mem_cons.1 h with rfl | h
      · exact Or.inl rfl
      · exact Or.inr (List.mem_cons_of_mem _ h)
    · exact List.mem_cons.1 h
    · rcases List.mem_cons.1 h with rfl | h
      · exact Or.inr List.mem_cons_self
      · exact (ih h).imp_right (List.mem_cons_of_mem _)

theorem Ordered.insert {a : Attrs} (h : a.Ordered) (key value : String) :
    (a.insert key value).Ordered := by
  obtain ⟨l⟩ := a
  unfold Ordered Attrs.insert at *
  dsimp only at *
  induction l with
  | nil => exact List.pairwise_singleton _ _
  | cons x l ih =>
    obtain ⟨k, v⟩ := x
    obtain ⟨hk, hl⟩ := List.pairwise_cons.1 h
    simp only [insertInto]
    split_ifs with h1 h2
    · subst h1
      exact List.pairwise_cons.2 ⟨hk, hl⟩
    · refine List.pairwise_cons.2 ⟨fun y hy => ?_, h⟩
      rcases List.mem_cons.1 hy with rfl | hy
      · exact h2
      · exact h2.trans (hk y hy)
    · refine List.pairwise_cons.2 ⟨fun y hy => ?_, ih hl⟩
      rcases mem_insertInto hy with rfl | hy
      · exact lt_of_le_of_ne (not_lt.1 h2) (Ne.symm h1)
      · exact hk y hy

theorem lookup_insertInto (key value k : String) (l : List (String × String)) :
    (insertInto key value l).lookup k = if k = key then some value else l.lookup k := by
  induction l with
  | nil => exact lookup_cons_ite k key value []
  | cons x l ih =>
    obtain ⟨k', v⟩ := x
    simp only [insertInto]
    -- the key stands here, or belongs before, or goes further down
    by_cases h1 : key = k'
    · subst h1
      rw [if_pos rfl, lookup_cons_ite, lookup_cons_ite]
      split_ifs <;> rfl
    · rw [if_neg h1]
      by_cases h2 : key < k'
      · rw [if_pos h2, lookup_cons_ite]
      · rw [if_neg h2, lookup_cons_ite, lookup_cons_ite, ih]
        by_cases h3 : k = key
        · subst h3
          rw [if_neg h1, if_pos rfl, if_pos rfl]
        · rw [if_neg h3, if_neg h3]

theorem get?_insert (a : Attrs) (key value k : String) :
    (a.insert key value).get? k = if k = key then some value else a.get? k :=
  lookup_insertInto key value k a.entries

/-! ### Removal -/

theorem Ordered.erase {a : Attrs} (h : a.Ordered) (key : String) : (a.erase key).Ordered :=
  List.Pairwise.filter _ h

theorem get?_erase (a : Attrs) (key k : String) :
    (a.erase key).get? k = if k = key then none else a.get? k := by
  obtain ⟨l⟩ := a
  unfold Attrs.erase get?
  dsimp only
  induction l with
  | nil => simp
  | cons x l ih =>
    obtain ⟨k', v⟩ := x
    by_cases h1 : k' = key
    · subst h1
      rw [List.filter_cons_of_neg (by simp), ih, lookup_cons_ite]
      split_ifs <;> rfl
    · rw [List.filter_cons_of_pos (by simpa using h1), lookup_cons_ite, lookup_cons_ite, ih]
      by_cases h2 : k = k'
      · subst h2
        rw [if_pos rfl, if_pos rfl, if_neg h1]
      · rw [if_neg h2, if_neg h2]

/-! ### Attributes of a list of pairs -/

theorem ordered_ofList (pairs : List (String × String)) : (ofList pairs).Ordered := by
  unfold ofList
  suffices h : ∀ a : Attrs, a.Ordered →
      (pairs.foldl (fun a (x : String × String) => a.insert x.1 x.2) a).Ordered from
    h empty ordered_empty
  induction pairs with
  | nil => exact fun a h => h
  | cons x l ih => exact fun a h => ih _ (h.insert x.1 x.2)

/-! ### Changes -/

/-- One change to attributes. -/
inductive Write
  | set (key value : String)
  | erase (key : String)
  deriving DecidableEq, Repr

/-- Makes a change. -/
def write (a : Attrs) : Write → Attrs
  | .set key value => a.insert key value
  | .erase key => a.erase key

theorem Ordered.write {a : Attrs} (h : a.Ordered) (w : Write) : (a.write w).Ordered := by
  cases w with
  | set key value => exact h.insert key value
  | erase key => exact h.erase key

theorem Ordered.nodup {a : Attrs} (h : a.Ordered) : (a.entries.map Prod.fst).Nodup := by
  refine List.Pairwise.map _ (fun x y hxy => ?_) h
  exact ne_of_lt hxy

theorem get?_of_mem {a : Attrs} (h : a.Ordered) {e : String × String} (he : e ∈ a.entries) :
    a.get? e.1 = some e.2 := by
  obtain ⟨l⟩ := a
  unfold Ordered get? at *
  dsimp only at *
  induction l with
  | nil => cases he
  | cons x l ih =>
    obtain ⟨hx, hl⟩ := List.pairwise_cons.1 h
    rw [lookup_cons_ite]
    rcases List.mem_cons.1 he with rfl | he
    · rw [if_pos rfl]
    · rw [if_neg (ne_of_gt (hx e he)), ih hl he]

/-- The entries are the graph of the map. -/
theorem mem_entries_iff {a : Attrs} (h : a.Ordered) {key value : String} :
    (key, value) ∈ a.entries ↔ a.get? key = some value := by
  refine ⟨get?_of_mem h, fun hget => ?_⟩
  obtain ⟨before, after, heq, -⟩ := List.lookup_eq_some_iff.1 hget
  simp [heq]

end Attrs

/-! ### Ports -/

/-- The port that an edge takes over from one of its ends, under the name of the attribute. -/
def Edge.inherited (e : Edge) (key : String) : Option String :=
  if key = "headport" ∧ e.source.port ≠ "" then some e.source.port
  else if key = "tailport" ∧ e.target.port ≠ "" then some e.target.port
  else none

theorem Edge.ordered_portAttrs {e : Edge} (h : e.attrs.Ordered) : e.portAttrs.Ordered := by
  unfold Edge.portAttrs
  dsimp only
  split_ifs with h1 h2
  · exact (h.insert _ _).insert _ _
  · exact h.insert _ _
  · exact h.insert _ _
  · exact h

theorem Attrs.get?_insert_unless (a b : Attrs) (key port k : String) :
    (if !a.contains key && port ≠ "" then b.insert key port else b).get? k =
      if k = key ∧ a.get? key = none ∧ port ≠ "" then some port else b.get? k := by
  have hcond : (!a.contains key && decide (port ≠ "")) = true ↔
      a.get? key = none ∧ port ≠ "" := by
    simp [Attrs.contains]
  by_cases h : a.get? key = none ∧ port ≠ ""
  · rw [if_pos (hcond.2 h), Attrs.get?_insert]
    simp only [h, and_true, ne_eq, not_false_eq_true]
  · rw [if_neg (mt hcond.1 h), if_neg fun hk => h hk.2]

/-- An edge has its own attributes, and the ports of its ends where it sets none. -/
theorem Edge.get?_portAttrs (e : Edge) (k : String) :
    e.portAttrs.get? k = (e.attrs.get? k).or (e.inherited k) := by
  unfold Edge.portAttrs Edge.inherited
  simp only [Attrs.get?_insert_unless]
  cases hv : e.attrs.get? k with
  | some v =>
    -- what the edge sets itself is not taken over
    have hset : ∀ key port, ¬ (k = key ∧ e.attrs.get? key = none ∧ port ≠ "") := by
      rintro key port ⟨rfl, hnone, -⟩
      rw [hv] at hnone
      cases hnone
    rw [if_neg (hset _ _), if_neg (hset _ _), Option.some_or]
  | none =>
    rw [Option.none_or]
    by_cases hh : k = "headport"
    · subst hh
      simp [hv]
    · by_cases ht : k = "tailport"
      · subst ht
        simp [hv]
      · simp [hh, ht]

/-! ### Graphs -/

/-- All attributes of a graph are finite maps. -/
structure Graph.Ordered (g : Graph) : Prop where
  nodeDefaults : g.nodeDefaults.Ordered
  edgeDefaults : g.edgeDefaults.Ordered
  nodes : ∀ n ∈ g.nodes, n.attrs.Ordered
  edges : ∀ e ∈ g.edges, e.attrs.Ordered

end Dot
end ApiDiagrams
