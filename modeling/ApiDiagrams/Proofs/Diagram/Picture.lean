import ApiDiagrams.Proofs.Diagram.Shuffling

/-!
# What a diagram shows

A diagram shows entities and a relation between them: one node for each entity, and one edge for
each pair of entities that the relation joins.

* `Displays`: a graph that shows a relation between entities;
* `nodeOf`: the node of an entity in a drawn plan;
* `Plan.displays_draw`: what a plan shows;
* `IsForest`, `Displays.isForest`: graphs whose edges make up a forest, and when they do.
-/

namespace ApiDiagrams
namespace Diagram

/-- The graph has one node for each of the entities, and one edge for each pair of them that is
joined. -/
structure Displays (g : Dot.Graph) (node : EntityId → Dot.Node) (is : List EntityId)
    (joins : EntityId → EntityId → Prop) : Prop where
  distinct : is.Nodup
  nodes : g.nodes = is.map node
  numbers : (g.nodes.map Dot.Node.id).Nodup
  joined : ∀ i ∈ is, ∀ j ∈ is, (∃ e ∈ g.edges, e.source = (node i).endpoint ∧
    e.target = (node j).endpoint) ↔ joins i j
  ends : ∀ e ∈ g.edges, ∃ i ∈ is, ∃ j ∈ is, e.source = (node i).endpoint ∧
    e.target = (node j).endpoint
  once : (g.edges.map fun e => (e.source.id, e.target.id)).Nodup

/-! ### Drawn plans -/

/-- The node of an entity when `is` are drawn with numbers from `k` on. -/
def nodeOf (style : EntityId → NodeStyle) (k : ℕ) (is : List EntityId) (i : EntityId) : Dot.Node :=
  (style i).toNode (k + is.idxOf i)

variable {style : EntityId → NodeStyle} {k : ℕ} {is : List EntityId} {i j : EntityId}

@[simp]
theorem id_nodeOf (style : EntityId → NodeStyle) (k : ℕ) (is : List EntityId) (i : EntityId) :
    (nodeOf style k is i).id = k + is.idxOf i := NodeStyle.id_toNode _ _

theorem eq_of_id_nodeOf (hi : i ∈ is) (h : (nodeOf style k is i).id = (nodeOf style k is j).id) :
    i = j := by
  rw [id_nodeOf, id_nodeOf] at h
  exact List.idxOf_inj hi |>.1 (by omega)

theorem nodeOf_cons_of_ne (h : i ≠ j) :
    nodeOf style k (j :: is) i = nodeOf style (k + 1) is i := by
  rw [nodeOf, nodeOf, List.idxOf_cons_ne _ h.symm, Nat.add_right_comm, Nat.add_assoc]

theorem nodesFrom_eq_map (h : is.Nodup) : nodesFrom style k is = is.map (nodeOf style k is) := by
  induction is generalizing k with
  | nil => rfl
  | cons j is ih =>
    obtain ⟨hj, hnodup⟩ := List.nodup_cons.1 h
    rw [nodesFrom_cons, ih hnodup, List.map_cons]
    congr 1
    · simp [nodeOf]
    · refine List.map_congr_left fun i hi => (nodeOf_cons_of_ne ?_).symm
      rintro rfl
      exact hj hi

/-- The table of a drawn plan holds the nodes of the entities. -/
theorem lookup_table_iff {n : Dot.Node} : (is.zip (nodesFrom style k is)).lookup i = some n ↔
    i ∈ is ∧ nodeOf style k is i = n := by
  induction is generalizing k with
  | nil => simp
  | cons j is ih =>
    rw [nodesFrom_cons, List.zip_cons_cons, List.lookup_cons]
    by_cases hij : i = j
    · subst hij
      simp [nodeOf]
    · rw [beq_eq_false_iff_ne.2 hij]
      dsimp only
      rw [ih, List.mem_cons, or_iff_right hij, nodeOf_cons_of_ne hij]

namespace Plan

variable {p : Plan} {c : Dot.Context} {joins : EntityId → EntityId → Prop}

theorem mem_edges_iff {e : Dot.Edge} : e ∈ p.edges k ↔ ∃ q ∈ p.pairs, q.1 ∈ p.entities ∧
    q.2 ∈ p.entities ∧ e = ⟨(nodeOf p.style k p.entities q.1).endpoint,
      (nodeOf p.style k p.entities q.2).endpoint, p.edgeAttrs⟩ := by
  unfold edges edgesOf nodes
  simp only [List.mem_map, List.mem_mergeSort, mem_edgesBetween_iff, lookup_table_iff]
  constructor
  · rintro ⟨⟨s, t⟩, ⟨q, hq, ⟨hs, rfl⟩, ht, rfl⟩, rfl⟩
    exact ⟨q, hq, hs, ht, rfl⟩
  · rintro ⟨q, hq, hs, ht, rfl⟩
    exact ⟨(_, _), ⟨q, hq, ⟨hs, rfl⟩, ht, rfl⟩, rfl⟩

/-- A plan shows the pairs of its entities that it lists. -/
theorem displays_draw (hnodup : p.entities.Nodup)
    (hpairs : ∀ i ∈ p.entities, ∀ j ∈ p.entities, (i, j) ∈ p.pairs ↔ joins i j) :
    Displays (p.draw c).1 (nodeOf p.style c.nextId p.entities) p.entities joins where
  distinct := hnodup
  nodes := nodesFrom_eq_map hnodup
  numbers := by
    change ((nodesFrom p.style c.nextId p.entities).map Dot.Node.id).Nodup
    rw [map_id_nodesFrom]
    exact List.nodup_range'
  joined i hi j hj := by
    rw [← hpairs i hi j hj]
    constructor
    · rintro ⟨e, he, hs, ht⟩
      obtain ⟨⟨i', j'⟩, hq, hi', hj', rfl⟩ := mem_edges_iff.1 he
      -- the number of a node tells whose it is
      obtain rfl := eq_of_id_nodeOf hi' (congrArg Dot.Endpoint.id hs)
      obtain rfl := eq_of_id_nodeOf hj' (congrArg Dot.Endpoint.id ht)
      exact hq
    · intro hq
      exact ⟨_, mem_edges_iff.2 ⟨(i, j), hq, hi, hj, rfl⟩, rfl, rfl⟩
  ends e he := by
    obtain ⟨q, -, hs, ht, rfl⟩ := mem_edges_iff.1 he
    exact ⟨q.1, hs, q.2, ht, rfl, rfl⟩
  once := by
    have hsorted := strictMono_edgesOf (numbered_zip p.style c.nextId p.entities) p.pairs p.edgeAttrs
    refine List.Pairwise.map _ (fun e f hef => ?_) hsorted
    intro heq
    obtain ⟨hs, ht⟩ := Prod.mk.inj heq
    omega

end Plan

/-- A builder without pages, for a layout tool of unknown version. -/
def Builder.pageless (ix : Index) : Builder where
  index := ix

theorem Builder.mem_sortByName {b : Builder} {set : List EntityId} :
    i ∈ b.sortByName set ↔ i ∈ set :=
  (List.mergeSort_perm _ _).mem_iff

theorem Builder.nodup_sortByName {b : Builder} {set : List EntityId} (h : set.Nodup) :
    (b.sortByName set).Nodup :=
  (List.mergeSort_perm _ _).nodup_iff.2 h

/-! ### Forests -/

/-- An edge leads from one number to another. -/
def Leads (g : Dot.Graph) (a b : ℕ) : Prop := ∃ e ∈ g.edges, e.source.id = a ∧ e.target.id = b

/-- An edge leads to the node. -/
def isEntered (g : Dot.Graph) (n : Dot.Node) : Bool := g.edges.any fun e => e.target.id == n.id

/-- The nodes that no edge leads to. -/
def roots (g : Dot.Graph) : List Dot.Node := g.nodes.filter fun n => !isEntered g n

/-- The edges of the graph make up a forest. -/
structure IsForest (g : Dot.Graph) : Prop where
  /-- No two edges lead to the same node. -/
  parents : (g.edges.map fun e => e.target.id).Nodup
  acyclic : ∀ a, ¬ Relation.TransGen (Leads g) a a
  /-- Each node that is no root has the one edge that leads to it. -/
  count : g.edges.length + (roots g).length = g.nodes.length

namespace Displays

variable {g : Dot.Graph} {node : EntityId → Dot.Node} {joins : EntityId → EntityId → Prop}
  (h : Displays g node is joins)

include h

theorem eq_of_id (hi : i ∈ is) (hj : j ∈ is) (hid : (node i).id = (node j).id) : i = j := by
  have hnumbers := h.numbers
  rw [h.nodes, List.map_map] at hnumbers
  exact List.inj_on_of_nodup_map hnumbers hi hj hid

theorem exists_of_leads {a b : ℕ} (hl : Leads g a b) : ∃ i ∈ is, ∃ j ∈ is,
    (node i).id = a ∧ (node j).id = b ∧ joins i j := by
  obtain ⟨e, he, rfl, rfl⟩ := hl
  obtain ⟨i, hi, j, hj, hs, ht⟩ := h.ends e he
  exact ⟨i, hi, j, hj, congrArg Dot.Endpoint.id hs.symm, congrArg Dot.Endpoint.id ht.symm,
    (h.joined i hi j hj).1 ⟨e, he, hs, ht⟩⟩

/-- A way along the edges is a way along the relation. -/
theorem transGen_of_leads {a b : ℕ} (hl : Relation.TransGen (Leads g) a b) :
    ∃ i ∈ is, ∃ j ∈ is, (node i).id = a ∧ (node j).id = b ∧ Relation.TransGen joins i j := by
  induction hl with
  | single hl =>
    obtain ⟨i, hi, j, hj, ha, hb, hjoins⟩ := h.exists_of_leads hl
    exact ⟨i, hi, j, hj, ha, hb, .single hjoins⟩
  | tail _ hl ih =>
    obtain ⟨i, hi, j, hj, ha, hb, htrans⟩ := ih
    obtain ⟨j', hj', l, hl, hb', hc, hjoins⟩ := h.exists_of_leads hl
    obtain rfl := h.eq_of_id hj' hj (hb'.trans hb.symm)
    exact ⟨i, hi, l, hl, ha, hc, htrans.tail hjoins⟩

/-- The edges end at the nodes that are entered, at each of them once. -/
theorem perm_targets (hparents : (g.edges.map fun e => e.target.id).Nodup) :
    (g.edges.map fun e => e.target.id).Perm
      ((g.nodes.filter (isEntered g)).map Dot.Node.id) := by
  have hnodes : ((g.nodes.filter (isEntered g)).map Dot.Node.id).Nodup :=
    h.numbers.sublist (List.filter_sublist.map Dot.Node.id)
  refine (List.perm_ext_iff_of_nodup hparents hnodes).2 fun a => ?_
  simp only [List.mem_map, List.mem_filter, isEntered, List.any_eq_true, beq_iff_eq]
  constructor
  · rintro ⟨e, he, rfl⟩
    obtain ⟨i, -, j, hj, -, ht⟩ := h.ends e he
    have hid : e.target.id = (node j).id := by
      rw [ht]
      rfl
    refine ⟨node j, ⟨?_, e, he, hid⟩, hid.symm⟩
    rw [h.nodes]
    exact List.mem_map_of_mem hj
  · rintro ⟨n, ⟨-, e, he, hid⟩, rfl⟩
    exact ⟨e, he, hid⟩

/-- A relation without cycles that joins nothing to two entities is shown as a forest. -/
theorem isForest (hone : ∀ i ∈ is, ∀ i' ∈ is, ∀ j ∈ is, joins i j → joins i' j → i = i')
    (hacyclic : ∀ i ∈ is, ¬ Relation.TransGen joins i i) : IsForest g := by
  have hparents : (g.edges.map fun e => e.target.id).Nodup := by
    have hedges : g.edges.Pairwise fun e f =>
        (e.source.id, e.target.id) ≠ (f.source.id, f.target.id) := List.pairwise_map.1 h.once
    refine List.pairwise_map.2 (hedges.imp_of_mem fun {e f} he hf hne htarget => hne ?_)
    obtain ⟨i, hi, j, hj, hs, ht⟩ := h.ends e he
    obtain ⟨i', hi', j', hj', hs', ht'⟩ := h.ends f hf
    have hjj : j = j' := by
      rw [ht, ht'] at htarget
      exact h.eq_of_id hj hj' htarget
    subst hjj
    have hii := hone i hi i' hi' j hj ((h.joined i hi j hj).1 ⟨e, he, hs, ht⟩)
      ((h.joined i' hi' j hj).1 ⟨f, hf, hs', ht'⟩)
    rw [hs, hs', ht, ht', hii]
  refine ⟨hparents, fun a hcycle => ?_, ?_⟩
  · obtain ⟨i, hi, j, hj, ha, hb, htrans⟩ := h.transGen_of_leads hcycle
    obtain rfl := h.eq_of_id hi hj (ha.trans hb.symm)
    exact hacyclic i hi htrans
  · have hlen := (h.perm_targets hparents).length_eq
    rw [List.length_map, List.length_map] at hlen
    rw [hlen]
    exact (List.length_eq_length_filter_add (isEntered g)).symm

end Displays
end Diagram
end ApiDiagrams
