import ApiDiagrams.Dot.Rendering
import ApiDiagrams.Proofs.Dot.Attributes
import Mathlib.Data.List.Sort
import Mathlib.Data.Set.Functor

/-!
# Sets without an order

A set has no order of its own: whoever goes through one may meet its elements in any order, and
sorting need not be stable. Here a program over sets is a program in `SetM`, which has all the
results that some choice of orders leads to, and attributes and graphs are written in this way. The
keys of attributes are distinct, so all choices lead to the same text.

* `enumerate`: goes through a set; `sortedSet`: the elements of a set in order;
* `bind_enumerate`: where the order does not matter, there is one result;
* `sortedSet_eq`: sorting leaves nothing of the order when the keys tell all elements apart;
* `Attrs.cloneAnyhow`, `Graph.textAnyhow`: copies attributes and writes graphs in any order;
* `Graph.textAnyhow_eq`: the only text of a graph whose attributes are finite maps.
-/

namespace ApiDiagrams

section Sets

variable {α β : Type}

/-- Goes through a set: its elements in any order. -/
def enumerate (set : List α) : SetM (List α) := ({l | l.Perm set} : Set (List α))

/-- Sorts a list, with elements of the same rank in any order. -/
def sortAnyhow (le : α → α → Bool) (l : List α) : SetM (List α) :=
  ({l' | l'.Perm l ∧ l'.Pairwise fun x y => le x y = true} : Set (List α))

/-- The elements of a set in order. -/
def sortedSet (le : α → α → Bool) (set : List α) : SetM (List α) := do
  sortAnyhow le (← enumerate set)

theorem mem_bind_iff {s : SetM α} {f : α → SetM β} {y : β} :
    y ∈ (s >>= f).run ↔ ∃ x ∈ s.run, y ∈ (f x).run := by
  change y ∈ ⋃ x ∈ s.run, (f x).run ↔ _
  simp

/-- Where the order does not matter, there is one result. -/
theorem bind_enumerate {set : List α} {f : List α → SetM β} {x : SetM β}
    (h : ∀ l, l.Perm set → f l = x) : enumerate set >>= f = x := by
  apply Set.ext
  intro y
  refine mem_bind_iff.trans ⟨?_, fun hy => ⟨set, List.Perm.refl set, ?_⟩⟩
  · rintro ⟨l, hl, hy⟩
    rw [← h l hl]
    exact hy
  · rw [h set (List.Perm.refl set)]
    exact hy

/-- Sorting leaves nothing of the order when elements of the same rank are equal. -/
theorem sortedSet_eq {le : α → α → Bool} (htrans : ∀ x y z, le x y = true → le y z = true →
    le x z = true) (htotal : ∀ x y, (le x y || le y x) = true) {set l : List α} (hl : l.Perm set)
    (hanti : ∀ x ∈ set, ∀ y ∈ set, le x y = true → le y x = true → x = y) :
    sortedSet le l = pure (set.mergeSort le) := by
  refine bind_enumerate fun l₀ hl₀ => ?_
  apply Set.ext
  intro l'
  have hsorted := List.pairwise_mergeSort htrans htotal set
  have hperm : l₀.Perm (set.mergeSort le) :=
    (hl₀.trans hl).trans (List.mergeSort_perm set le).symm
  change (l'.Perm l₀ ∧ l'.Pairwise fun x y => le x y = true) ↔ l' = set.mergeSort le
  constructor
  · rintro ⟨hl', hsorted'⟩
    refine List.Perm.eq_of_pairwise ?_ hsorted' hsorted (hl'.trans hperm)
    intro x y hx hy
    exact hanti x ((hl'.trans (hl₀.trans hl)).mem_iff.1 hx) y (List.mem_mergeSort.1 hy)
  · rintro rfl
    exact ⟨hperm.symm, hsorted⟩

end Sets

namespace Dot

/-! ### Attributes -/

namespace Attrs

theorem perm_insertInto {key value : String} {l : List (String × String)}
    (h : ∀ e ∈ l, e.1 ≠ key) : (insertInto key value l).Perm ((key, value) :: l) := by
  induction l with
  | nil => exact List.Perm.refl _
  | cons e l ih =>
    have ih := ih fun e' he' => h e' (List.mem_cons_of_mem _ he')
    simp only [insertInto]
    split_ifs with h1 h2
    · exact absurd h1.symm (h e List.mem_cons_self)
    · exact List.Perm.refl _
    · exact (ih.cons e).trans (List.Perm.swap _ _ _)

/-- Pairs with distinct keys are all kept. -/
theorem perm_ofList {l : List (String × String)} (h : (l.map Prod.fst).Nodup) :
    (ofList l).entries.Perm l := by
  induction l using List.reverseRecOn with
  | nil => exact List.Perm.refl _
  | append_singleton l e ih =>
    rw [List.map_append, List.nodup_append] at h
    obtain ⟨hl, -, hdisjoint⟩ := h
    have hofList : (ofList (l ++ [e])).entries = insertInto e.1 e.2 (ofList l).entries := by
      rw [ofList, List.foldl_append]
      rfl
    have hnew : ∀ e' ∈ (ofList l).entries, e'.1 ≠ e.1 := fun e' he' =>
      hdisjoint e'.1 (List.mem_map_of_mem ((ih hl).mem_iff.1 he')) e.1 (by simp)
    rw [hofList]
    exact (perm_insertInto hnew).trans
      (((ih hl).cons e).trans (List.perm_append_singleton e l).symm)

/-- Attributes are made of their entries, in whatever order these come. -/
theorem ofList_eq_of_perm {a : Attrs} (h : a.Ordered) {l : List (String × String)}
    (hl : l.Perm a.entries) : ofList l = a := by
  have hnodup : (l.map Prod.fst).Nodup := ((hl.map Prod.fst).nodup_iff).2 h.nodup
  have hentries : (ofList l).entries = a.entries := by
    refine List.Perm.eq_of_pairwise ?_ (ordered_ofList l) h ((perm_ofList hnodup).trans hl)
    intro x y _ _ hxy hyx
    exact absurd hxy (lt_asymm hyx)
  cases a
  exact congrArg Attrs.mk hentries

/-- Copies attributes one by one, in any order. -/
def cloneAnyhow (a : Attrs) : SetM Attrs := do return ofList (← enumerate a.entries)

/-- Writes attributes in the order of their keys. -/
def formatAnyhow (a : Attrs) : SetM String := do
  let keys ← sortedSet (fun k k' => decide (k ≤ k')) (a.entries.map Prod.fst)
  return String.intercalate ","
    (keys.map fun k => k ++ "=\"" ++ quoteValue ((a.get? k).getD "") ++ "\"")

theorem cloneAnyhow_eq {a : Attrs} (h : a.Ordered) : a.cloneAnyhow = pure a :=
  bind_enumerate fun _ hl => by rw [ofList_eq_of_perm h hl]

theorem formatAnyhow_eq {a : Attrs} (h : a.Ordered) : a.formatAnyhow = pure a.format := by
  have hkeys : (a.entries.map Prod.fst).Pairwise fun k k' => decide (k ≤ k') = true := by
    refine List.Pairwise.map _ (fun x y hxy => ?_) h
    exact decide_eq_true (le_of_lt hxy)
  have hentries : ((a.entries.map Prod.fst).map fun k =>
      k ++ "=\"" ++ quoteValue ((a.get? k).getD "") ++ "\"") =
        a.entries.map fun e => e.1 ++ "=\"" ++ quoteValue e.2 ++ "\"" := by
    rw [List.map_map]
    refine List.map_congr_left fun e he => ?_
    rw [Function.comp_apply, get?_of_mem h he, Option.getD_some]
  unfold formatAnyhow
  rw [sortedSet_eq ?_ ?_ (List.Perm.refl _) ?_, pure_bind, List.mergeSort_of_pairwise hkeys,
    hentries]
  · rfl
  · intro x y z hxy hyz
    simp only [decide_eq_true_eq] at *
    exact le_trans hxy hyz
  · intro x y
    simpa using le_total x y
  · intro x _ y _ hxy hyx
    simp only [decide_eq_true_eq] at hxy hyx
    exact le_antisymm hxy hyx

end Attrs

/-! ### Graphs -/

/-- Writes what stands between the brackets of a node's statement. -/
def Node.clausesAnyhow (n : Node) : SetM String := do
  if n.richLabel ≠ "" then
    let plain ← n.attrs.cloneAnyhow
    let rest ← (plain.erase "label").formatAnyhow
    return "label=<" ++ n.richLabel ++ ">" ++ (if rest = "" then "" else "," ++ rest)
  else n.attrs.formatAnyhow

/-- Writes the statement of a node. -/
def Node.statementAnyhow (n : Node) : SetM String := do
  return nodeName n.id ++ bracketed (← n.clausesAnyhow) ++ "\n"

/-- Writes the statement of an edge. -/
def Edge.statementAnyhow (e : Edge) : SetM String := do
  let attrs ← e.attrs.cloneAnyhow
  let clauses ← ({ e with attrs } : Edge).portAttrs.formatAnyhow
  return nodeName e.source.id ++ " -> " ++ nodeName e.target.id ++ bracketed clauses ++ "\n"

/-- Writes a graph. -/
def Graph.textAnyhow (g : Graph) : SetM String := do
  let nodeDefaults ← g.nodeDefaults.formatAnyhow
  let edgeDefaults ← g.edgeDefaults.formatAnyhow
  let nodes ← g.nodes.mapM Node.statementAnyhow
  let edges ← g.edges.mapM Edge.statementAnyhow
  return "digraph " ++ g.uid ++ " \x7b\n" ++ "node [" ++ nodeDefaults ++ "]\n" ++
    "edge [" ++ edgeDefaults ++ "]\n" ++ g.bodyText ++ "/* Nodes */\n" ++ String.join nodes ++
    "/* Edges */\n" ++ String.join edges ++ "\x7d\n"

theorem Node.statementAnyhow_eq {n : Node} (h : n.attrs.Ordered) :
    n.statementAnyhow = pure n.statement := by
  have hclauses : n.clausesAnyhow = pure n.clauses := by
    unfold clausesAnyhow clauses
    split_ifs
    · rw [Attrs.cloneAnyhow_eq h, pure_bind, Attrs.formatAnyhow_eq (h.erase _), pure_bind]
    · exact Attrs.formatAnyhow_eq h
  rw [statementAnyhow, hclauses, pure_bind]
  rfl

theorem Edge.statementAnyhow_eq {e : Edge} (h : e.attrs.Ordered) :
    e.statementAnyhow = pure e.statement := by
  rw [statementAnyhow, Attrs.cloneAnyhow_eq h, pure_bind,
    Attrs.formatAnyhow_eq (ordered_portAttrs h), pure_bind]
  rfl

theorem mapM_eq_pure_map {α β : Type} {f : α → SetM β} {f' : α → β} {l : List α}
    (h : ∀ x ∈ l, f x = pure (f' x)) : l.mapM f = pure (l.map f') := by
  induction l with
  | nil => rfl
  | cons x l ih =>
    rw [List.mapM_cons, h x List.mem_cons_self, pure_bind,
      ih fun y hy => h y (List.mem_cons_of_mem _ hy), pure_bind, List.map_cons]

/-- There is one text of a graph whose attributes are finite maps. -/
theorem Graph.textAnyhow_eq {g : Graph} (h : g.Ordered) : g.textAnyhow = pure g.text := by
  have hnodes := mapM_eq_pure_map fun n hn => Node.statementAnyhow_eq (h.nodes n hn)
  have hedges := mapM_eq_pure_map fun e he => Edge.statementAnyhow_eq (h.edges e he)
  unfold textAnyhow
  rw [Attrs.formatAnyhow_eq h.nodeDefaults, pure_bind, Attrs.formatAnyhow_eq h.edgeDefaults,
    pure_bind, hnodes, pure_bind, hedges, pure_bind]
  rfl

end Dot
end ApiDiagrams
