import ApiDiagrams.Proofs.Dot.Drawing
import ApiDiagrams.Proofs.Dot.Linking

/-!
# What linking changes

Linking a graph changes the `href`s that are placeholders, in the defaults, the nodes and the edges,
and the body. On a canvas it works on the nodes where they are kept, for all graphs together; since a
node is drawn once, in one graph, that links one graph as it stands and leaves the others alone.

* `Attrs.LinkedTo`, `Graph.LinkedTo`: what is different after linking, and `Graph.linkedTo_link`;
* `Canvas.Placed`: every node is drawn once, with one lemma for each way of drawing;
* `Canvas.nodes_link`, `Canvas.sheets_link`: what linking changes on a canvas;
* `Canvas.graph?_link`: what that is for its graphs.
-/

namespace ApiDiagrams
namespace Dot

/-! ### Attributes -/

/-- The attributes after linking: an `href` that is a placeholder has become its address or is gone,
and everything else is as it was. -/
structure Attrs.LinkedTo (l : Linker) (a b : Attrs) : Prop where
  others : ∀ key, key ≠ "href" → b.get? key = a.get? key
  placeholder : ∀ href name, a.get? "href" = some href → IsBracketed href.toList name →
    b.get? "href" = l (String.ofList name)
  kept : (∀ href, a.get? "href" = some href → ∀ name, ¬ IsBracketed href.toList name) → b = a

theorem placeholder?_of_isBracketed {value : String} {name : List Char}
    (h : IsBracketed value.toList name) : placeholder? value = some (String.ofList name) := by
  unfold placeholder?
  rw [bracketedName?_eq_some_iff.2 ⟨_, h, (List.append_nil _).symm⟩]

theorem Attrs.linkedTo_link (l : Linker) (a : Attrs) : a.LinkedTo l (a.link l) where
  others key hkey := by
    unfold Attrs.link
    split
    · rfl
    · split
      · rfl
      · split
        · rw [get?_insert, if_neg hkey]
        · rw [get?_erase, if_neg hkey]
  placeholder href name hhref hname := by
    unfold Attrs.link
    simp only [hhref, placeholder?_of_isBracketed hname]
    cases hurl : l (String.ofList name) with
    | some url => exact (get?_insert _ _ _ _).trans (if_pos rfl)
    | none => exact (get?_erase _ _ _).trans (if_pos rfl)
  kept h := link_eq_self l (isLinked_iff.2 h)

/-! ### Graphs -/

/-- A node after linking. -/
structure Node.LinkedTo (l : Linker) (n m : Node) : Prop where
  id : m.id = n.id
  port : m.port = n.port
  label : m.label = n.label
  richLabel : m.richLabel = n.richLabel
  attrs : n.attrs.LinkedTo l m.attrs

/-- An edge after linking. -/
structure Edge.LinkedTo (l : Linker) (e k : Edge) : Prop where
  source : k.source = e.source
  target : k.target = e.target
  attrs : e.attrs.LinkedTo l k.attrs

/-- A graph after linking, its body apart. -/
structure Graph.LinkedTo (l : Linker) (g g' : Graph) : Prop where
  title : g'.title = g.title
  caption : g'.caption = g.caption
  uid : g'.uid = g.uid
  nodeDefaults : g.nodeDefaults.LinkedTo l g'.nodeDefaults
  edgeDefaults : g.edgeDefaults.LinkedTo l g'.edgeDefaults
  nodes : List.Forall₂ (Node.LinkedTo l) g.nodes g'.nodes
  edges : List.Forall₂ (Edge.LinkedTo l) g.edges g'.edges

/-- A node with its attributes linked. -/
def Node.link (n : Node) (l : Linker) : Node := { n with attrs := n.attrs.link l }

theorem Node.linkedTo_link (l : Linker) (n : Node) : n.LinkedTo l (n.link l) where
  id := rfl
  port := rfl
  label := by
    unfold Node.label
    rw [show (n.link l).attrs.get? "label" = _ from
      (Attrs.linkedTo_link l n.attrs).others "label" (by decide)]
    rfl
  richLabel := rfl
  attrs := n.attrs.linkedTo_link l

theorem Graph.linkedTo_link (l : Linker) (g : Graph) : g.LinkedTo l (g.link l) where
  title := rfl
  caption := rfl
  uid := rfl
  nodeDefaults := g.nodeDefaults.linkedTo_link l
  edgeDefaults := g.edgeDefaults.linkedTo_link l
  nodes := by
    unfold Graph.link
    rw [List.forall₂_map_right_iff, List.forall₂_same]
    exact fun n _ => n.linkedTo_link l
  edges := by
    unfold Graph.link
    rw [List.forall₂_map_right_iff, List.forall₂_same]
    exact fun e _ => ⟨rfl, rfl, e.attrs.linkedTo_link l⟩

/-! ### Linking on the canvas -/

/-- A sheet with its attributes and its body linked. -/
def Sheet.link (s : Sheet) (l : Linker) : Sheet :=
  { s with
    frame := s.frame.link l
    strokes := s.strokes.map fun e => { e with attrs := e.attrs.link l } }

theorem NodeSpec.attrs_of_toNode {spec : NodeSpec} {id : ℕ} {n : Node}
    (h : spec.toNode id = .ok n) : n.attrs = spec.nodeAttrs := by
  by_cases hboth : spec.label ≠ "" ∧ spec.richLabel ≠ ""
  · rw [toNode_of_both hboth] at h
    cases h
  · rw [spec.toNode_eq hboth] at h
    cases h
    rfl

/-- A node that is accepted comes last among the nodes and on its sheet. -/
theorem Canvas.newNode_eq_ok {c c' : Canvas} {g : ℕ} {spec : NodeSpec} {n : Node}
    (h : c.newNode g spec = .ok (n, c')) :
    g < c.sheets.size ∧ n.attrs = spec.nodeAttrs ∧ c'.nodes = c.nodes.push n ∧
      c'.sheets = c.sheets.modify g fun s => { s with nodes := s.nodes ++ [c.nodes.size] } := by
  unfold newNode at h
  split at h
  · cases h
  · rename_i s hs
    dsimp only at h
    cases hn : spec.toNode (c.contexts.getD s.context {}).nextId with
    | error f =>
      rw [hn] at h
      cases h
    | ok m =>
      rw [hn] at h
      cases h
      exact ⟨(Array.getElem?_eq_some_iff.1 hs).1, NodeSpec.attrs_of_toNode hn, rfl, rfl⟩

namespace Canvas

variable {c : Canvas}

/-- The nodes of a graph, by their numbers. -/
def nodesOf (c : Canvas) (g : ℕ) : List ℕ := (c.sheets[g]?.map (·.nodes)).getD []

/-- Every node is drawn once, in one graph. -/
structure Placed (c : Canvas) : Prop where
  bound : ∀ g, ∀ n ∈ c.nodesOf g, n < c.nodes.size
  nodup : ∀ g, (c.nodesOf g).Nodup
  alone : ∀ g g' n, n ∈ c.nodesOf g → n ∈ c.nodesOf g' → g = g'

theorem sheets_foldl_editNode (f : Node → Node) (ns : List ℕ) (c : Canvas) :
    (ns.foldl (fun c n => c.editNode n f) c).sheets = c.sheets := by
  induction ns generalizing c with
  | nil => rfl
  | cons n ns ih => exact ih (c.editNode n f)

theorem size_foldl_editNode (f : Node → Node) (ns : List ℕ) (c : Canvas) :
    (ns.foldl (fun c n => c.editNode n f) c).nodes.size = c.nodes.size := by
  induction ns generalizing c with
  | nil => rfl
  | cons n ns ih => exact (ih (c.editNode n f)).trans Array.size_modify

theorem nodes_foldl_editNode (f : Node → Node) {ns : List ℕ} (hns : ns.Nodup) (c : Canvas)
    (n : ℕ) : (ns.foldl (fun c n => c.editNode n f) c).nodes[n]? =
      if n ∈ ns then c.nodes[n]?.map f else c.nodes[n]? := by
  induction ns generalizing c with
  | nil => rfl
  | cons n' ns ih =>
    obtain ⟨hnot, hns⟩ := List.nodup_cons.1 hns
    rw [List.foldl_cons, ih hns, editNode]
    dsimp only
    rw [Array.getElem?_modify]
    by_cases hn : n = n'
    · subst hn
      simp [hnot]
    · simp [hn, Ne.symm hn]

theorem sheets_link (c : Canvas) (g : ℕ) (l : Linker) (g' : ℕ) :
    (c.link g l).sheets[g']? =
      if g' = g then c.sheets[g']?.map (·.link l) else c.sheets[g']? := by
  unfold link
  split
  · rename_i hs
    split_ifs with hg
    · rw [hg, hs]
      rfl
    · rfl
  · dsimp only
    rw [sheets_foldl_editNode, Array.getElem?_modify]
    simp only [eq_comm (a := g)]
    rfl

theorem nodes_link (hc : c.Placed) (g : ℕ) (l : Linker) (n : ℕ) :
    (c.link g l).nodes[n]? =
      if n ∈ c.nodesOf g then c.nodes[n]?.map (·.link l) else c.nodes[n]? := by
  have hnodup := hc.nodup g
  unfold link nodesOf at *
  split
  · rename_i hs
    simp [hs]
  · rename_i s hs
    simp only [hs, Option.map_some, Option.getD_some] at hnodup ⊢
    exact nodes_foldl_editNode (·.link l) hnodup c n

/-- A node after linking, also one that is not there. -/
theorem node_link (hc : c.Placed) (g : ℕ) (l : Linker) (n : ℕ) :
    (c.link g l).node n = if n ∈ c.nodesOf g then (c.node n).link l else c.node n := by
  simp only [node, Array.getD_eq_getD_getElem?, nodes_link hc]
  by_cases hn : n ∈ c.nodesOf g
  · rw [if_pos hn, if_pos hn, Array.getElem?_eq_getElem (hc.bound g n hn)]
    rfl
  · rw [if_neg hn, if_neg hn]

/-- Linking a graph links it as it stands, and leaves every other graph alone. -/
theorem graph?_link (hc : c.Placed) (g : ℕ) (l : Linker) (g' : ℕ) :
    (c.link g l).graph? g' =
      if g' = g then (c.graph? g').map (·.link l) else c.graph? g' := by
  have hendpoint : ∀ n, ((c.link g l).node n).endpoint = (c.node n).endpoint := by
    intro n
    rw [node_link hc]
    split_ifs <;> rfl
  unfold graph?
  rw [sheets_link]
  cases hs : c.sheets[g']? with
  | none => split_ifs <;> rfl
  | some s =>
    have hof : c.nodesOf g' = s.nodes := by rw [nodesOf, hs]; rfl
    by_cases hg : g' = g
    · subst hg
      have hnodes : s.nodes.map (c.link g' l).node = (s.nodes.map c.node).map (·.link l) := by
        rw [List.map_map]
        exact List.map_congr_left fun n hn => by rw [node_link hc, if_pos (hof ▸ hn)]; rfl
      simp only [if_true, Option.map_some, hnodes, hendpoint, Sheet.link, Graph.link, List.map_map]
      rfl
    · have hnodes : s.nodes.map (c.link g l).node = s.nodes.map c.node :=
        List.map_congr_left fun n hn => by
          rw [node_link hc, if_neg fun hmem => hg (hc.alone g' g n (hof ▸ hn) hmem)]
      simp only [if_neg hg, Option.map_some, hnodes, hendpoint]

/-! ### Where nodes are drawn -/

theorem placed_empty : Placed {} where
  bound g n hn := by simp [nodesOf] at hn
  nodup g := by simp [nodesOf]
  alone g g' n hn := by simp [nodesOf] at hn

/-- What neither draws nor makes nodes leaves them where they are. -/
theorem Placed.congr {c' : Canvas} (hc : c.Placed) (hof : ∀ g, c'.nodesOf g = c.nodesOf g)
    (hsize : c'.nodes.size = c.nodes.size) : c'.Placed where
  bound g n hn := hsize ▸ hc.bound g n (hof g ▸ hn)
  nodup g := hof g ▸ hc.nodup g
  alone g g' n hn hn' := hc.alone g g' n (hof g ▸ hn) (hof g' ▸ hn')

theorem Placed.editNode (hc : c.Placed) (n : ℕ) (f : Node → Node) : (c.editNode n f).Placed :=
  hc.congr (fun _ => rfl) Array.size_modify

theorem Placed.editSheet (hc : c.Placed) (g : ℕ) {f : Sheet → Sheet}
    (hf : ∀ s, (f s).nodes = s.nodes) : (c.editSheet g f).Placed := by
  refine hc.congr (fun g' => ?_) rfl
  unfold nodesOf Canvas.editSheet
  rw [Array.getElem?_modify]
  split_ifs
  · simp [Function.comp_def, hf]
  · rfl

theorem Placed.newGraph (hc : c.Placed) (title : String) (prepare : Graph → Graph) :
    (c.newGraph title prepare).2.Placed := by
  refine hc.congr (fun g => ?_) rfl
  unfold nodesOf Canvas.newGraph
  simp only [Array.getElem?_push]
  split_ifs with hg
  · simp [hg]
  · rfl

theorem Placed.link (hc : c.Placed) (g : ℕ) (l : Linker) : (c.link g l).Placed := by
  refine hc.congr (fun g' => ?_) ?_
  · unfold nodesOf
    rw [sheets_link]
    split_ifs
    · simp [Function.comp_def, Sheet.link]
    · rfl
  · unfold Canvas.link
    split
    · rfl
    · exact size_foldl_editNode _ _ c

/-- A new node has a number that no node had before. -/
theorem Placed.newNode {c' : Canvas} (hc : c.Placed) {g : ℕ} {spec : NodeSpec} {n : Node}
    (h : c.newNode g spec = .ok (n, c')) : c'.Placed := by
  obtain ⟨hg, -, hnodes, hsheets⟩ := newNode_eq_ok h
  have hof : ∀ g', c'.nodesOf g' =
      if g' = g then c.nodesOf g' ++ [c.nodes.size] else c.nodesOf g' := by
    intro g'
    unfold nodesOf
    rw [hsheets, Array.getElem?_modify]
    by_cases hg' : g' = g
    · subst hg'
      simp [Array.getElem?_eq_getElem hg]
    · simp [hg', Ne.symm hg']
  have hmem : ∀ g' n, n ∈ c'.nodesOf g' ↔ n ∈ c.nodesOf g' ∨ g' = g ∧ n = c.nodes.size := by
    intro g' n
    rw [hof]
    split_ifs with hg' <;> simp [hg']
  have hfresh : ∀ g', c.nodes.size ∉ c.nodesOf g' := fun g' h => lt_irrefl _ (hc.bound g' _ h)
  refine ⟨fun g' n hn => ?_, fun g' => ?_, fun g₁ g₂ k h₁ h₂ => ?_⟩
  · rw [hnodes, Array.size_push]
    rcases (hmem g' n).1 hn with hn | ⟨-, rfl⟩
    · exact (hc.bound g' n hn).trans (Nat.lt_succ_self _)
    · exact Nat.lt_succ_self _
  · rw [hof]
    split_ifs
    · exact List.nodup_append.2 ⟨hc.nodup g', List.nodup_singleton _, by
        rintro a ha b hb rfl
        exact hfresh g' (List.mem_singleton.1 hb ▸ ha)⟩
    · exact hc.nodup g'
  · rcases (hmem g₁ k).1 h₁ with h₁ | ⟨rfl, rfl⟩ <;> rcases (hmem g₂ _).1 h₂ with h₂ | ⟨rfl, h₂⟩
    · exact hc.alone g₁ g₂ k h₁ h₂
    · exact absurd (h₂ ▸ h₁) (hfresh g₁)
    · exact absurd h₂ (hfresh g₂)
    · rfl

end Canvas

end Dot
end ApiDiagrams
