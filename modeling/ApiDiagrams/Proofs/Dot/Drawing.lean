import ApiDiagrams.Dot.Canvas
import ApiDiagrams.Proofs.Dot.Attributes
import ApiDiagrams.Proofs.Dot.Naming

/-!
# Histories of drawings

The graphs of one context are drawn by a sequence of acts on a canvas: new graphs, new nodes on any
of them, edges, labels, ports and changes to attributes, in any order.

* `Act`, `Canvas.act`: one act; a node that is refused leaves the canvas as it is;
* `draw`: the canvas after a sequence of acts, from an empty one with one context;
* `draw_induction`: what one act preserves holds after every sequence;
* `Canvas.Kept`: the invariant of drawing, and `kept_draw`.

A canvas keeps the names and numbers that it gave out in its context. The invariant says that they
are exactly those of the graphs and nodes drawn on it.
-/

namespace ApiDiagrams
namespace Dot

/-- One act of drawing. Graphs and nodes go by their numbers on the canvas, edges by their place in
their graph. -/
inductive Act
  | newGraph (title body caption : String) (nodeDefaults edgeDefaults : List (String × String))
  | newNode (graph : ℕ) (label richLabel : String) (attrs : List (String × String))
  | addEdge (graph source target : ℕ) (attrs : List (String × String))
  | setLabel (node : ℕ) (label : String)
  | setRichLabel (node : ℕ) (label : String)
  | setPort (node : ℕ) (port : String)
  | writeNode (node : ℕ) (w : Attrs.Write)
  | writeEdge (graph edge : ℕ) (w : Attrs.Write)
  | writeNodeDefaults (graph : ℕ) (w : Attrs.Write)
  | writeEdgeDefaults (graph : ℕ) (w : Attrs.Write)

/-- The act makes a new graph. -/
def Act.isNewGraph : Act → Bool
  | .newGraph .. => true
  | _ => false

namespace Canvas

/-- Changes one graph of the canvas. -/
def editSheet (c : Canvas) (g : ℕ) (f : Sheet → Sheet) : Canvas :=
  { c with sheets := c.sheets.modify g f }

/-- The canvas after an act. -/
def act (c : Canvas) : Act → Canvas
  | .newGraph title body caption nodeDefaults edgeDefaults =>
    (c.newGraph title fun g =>
      { g with body, caption, nodeDefaults := .ofList nodeDefaults,
               edgeDefaults := .ofList edgeDefaults }).2
  | .newNode g label richLabel attrs =>
    match c.newNode g ⟨label, richLabel, .ofList attrs⟩ with
    | .ok (_, c) => c
    | .error _ => c
  | .addEdge g source target attrs => c.addEdge g source target (.ofList attrs)
  | .setLabel n label => c.editNode n (·.setLabel label)
  | .setRichLabel n label => c.editNode n (·.setRichLabel label)
  | .setPort n port => c.editNode n fun m => { m with port }
  | .writeNode n w => c.editNode n fun m => { m with attrs := m.attrs.write w }
  | .writeEdge g e w =>
    c.editSheet g fun s =>
      { s with strokes := s.strokes.modify e fun k => { k with attrs := k.attrs.write w } }
  | .writeNodeDefaults g w =>
    c.editGraph g fun f => { f with nodeDefaults := f.nodeDefaults.write w }
  | .writeEdgeDefaults g w =>
    c.editGraph g fun f => { f with edgeDefaults := f.edgeDefaults.write w }

end Canvas

/-- The canvas after a sequence of acts. -/
def draw (acts : List Act) : Canvas := acts.foldl Canvas.act {}

theorem draw_concat (acts : List Act) (a : Act) : draw (acts ++ [a]) = (draw acts).act a := by
  rw [draw, List.foldl_append]
  rfl

/-- What one act preserves holds after every sequence of acts. -/
theorem draw_induction {P : Canvas → Prop} (h0 : P {}) (hs : ∀ c a, P c → P (c.act a))
    (acts : List Act) : P (draw acts) := by
  induction acts using List.reverseRecOn with
  | nil => exact h0
  | append_singleton acts a ih =>
    rw [draw_concat]
    exact hs _ a ih

/-! ### The invariant -/

namespace Canvas

/-- The names of the graphs, in the order in which they were made. -/
def names (c : Canvas) : List (List Char) := c.sheets.toList.map fun s => s.frame.uid.toList

/-- The attributes that belong to a graph alone are ordered. -/
structure SheetOrdered (s : Sheet) : Prop where
  nodeDefaults : s.frame.nodeDefaults.Ordered
  edgeDefaults : s.frame.edgeDefaults.Ordered
  strokes : ∀ k ∈ s.strokes, k.attrs.Ordered

/-- The invariant of drawing. -/
structure Kept (c : Canvas) : Prop where
  /-- There is one context, and it knows the names of all graphs and the number of nodes. -/
  context : c.contexts = #[⟨c.nodes.size, c.names.reverse⟩]
  sheetContext : ∀ s ∈ c.sheets.toList, s.context = 0
  nodup : c.names.Nodup
  isUid : ∀ u ∈ c.names, IsUid u
  /-- Nodes have consecutive numbers. -/
  ids : c.nodes.toList.map Node.id = List.range c.nodes.size
  nodes : ∀ n ∈ c.nodes.toList, n.attrs.Ordered
  sheets : ∀ s ∈ c.sheets.toList, SheetOrdered s

theorem kept_empty : Kept {} where
  context := rfl
  sheetContext s hs := by cases hs
  nodup := List.nodup_nil
  isUid u hu := by cases hu
  ids := rfl
  nodes n hn := by cases hn
  sheets s hs := by cases hs

theorem mem_modify {α : Type} {l : List α} {i : ℕ} {f : α → α} {a : α} (h : a ∈ l.modify i f) :
    a ∈ l ∨ ∃ b ∈ l, a = f b := by
  induction l generalizing i with
  | nil => simp at h
  | cons x l ih =>
    cases i with
    | zero =>
      rcases List.mem_cons.1 h with rfl | h
      · exact Or.inr ⟨x, List.mem_cons_self, rfl⟩
      · exact Or.inl (List.mem_cons_of_mem _ h)
    | succ i =>
      rcases List.mem_cons.1 h with rfl | h
      · exact Or.inl List.mem_cons_self
      · obtain h | ⟨b, hb, rfl⟩ := ih h
        · exact Or.inl (List.mem_cons_of_mem _ h)
        · exact Or.inr ⟨b, List.mem_cons_of_mem _ hb, rfl⟩

/-- What `f` leaves alone is the same all along a list changed by `f` in one place. -/
theorem map_modify {α β : Type} (l : List α) (i : ℕ) {f : α → α} {p : α → β}
    (h : ∀ a, p (f a) = p a) : (l.modify i f).map p = l.map p := by
  induction l generalizing i with
  | nil => simp
  | cons x l ih =>
    cases i with
    | zero => simp [h]
    | succ i => simp [ih]

variable {c : Canvas}

/-- A change to a node that keeps its number and the order of its attributes. -/
theorem Kept.editNode (hc : c.Kept) (n : ℕ) {f : Node → Node} (hid : ∀ m, (f m).id = m.id)
    (hf : ∀ m, m.attrs.Ordered → (f m).attrs.Ordered) : (c.editNode n f).Kept where
  context := by
    have hsize : (c.editNode n f).nodes.size = c.nodes.size := Array.size_modify
    rw [hsize]
    exact hc.context
  sheetContext := hc.sheetContext
  nodup := hc.nodup
  isUid := hc.isUid
  ids := by
    simp only [Canvas.editNode, Array.toList_modify, Array.size_modify]
    rw [map_modify _ _ hid]
    exact hc.ids
  nodes m hm := by
    simp only [Canvas.editNode, Array.toList_modify] at hm
    obtain hm | ⟨b, hb, rfl⟩ := mem_modify hm
    · exact hc.nodes m hm
    · exact hf b (hc.nodes b hb)
  sheets := hc.sheets

/-- A change to a graph that keeps its name, its context and the order of its attributes. -/
theorem Kept.editSheet (hc : c.Kept) (g : ℕ) {f : Sheet → Sheet}
    (hctx : ∀ s, (f s).context = s.context) (huid : ∀ s, (f s).frame.uid = s.frame.uid)
    (hf : ∀ s, SheetOrdered s → SheetOrdered (f s)) : (c.editSheet g f).Kept := by
  have hnames : (c.editSheet g f).names = c.names := by
    simp only [names, Canvas.editSheet, Array.toList_modify]
    exact map_modify _ _ fun s => by rw [huid]
  refine ⟨?_, fun s hs => ?_, hnames ▸ hc.nodup, hnames ▸ hc.isUid, hc.ids, hc.nodes,
    fun s hs => ?_⟩
  · rw [hnames]
    exact hc.context
  · simp only [Canvas.editSheet, Array.toList_modify] at hs
    obtain hs | ⟨b, hb, rfl⟩ := mem_modify hs
    · exact hc.sheetContext s hs
    · rw [hctx]
      exact hc.sheetContext b hb
  · simp only [Canvas.editSheet, Array.toList_modify] at hs
    obtain hs | ⟨b, hb, rfl⟩ := mem_modify hs
    · exact hc.sheets s hs
    · exact hf b (hc.sheets b hb)

/-! ### New graphs -/

/-- The name that a title gets. -/
def nameOf (c : Canvas) (title : String) : List Char :=
  Context.freeUid ⟨c.nodes.size, c.names.reverse⟩ (uidBase (Text.skeleton title.toList))

/-- The graph that a title and options make. -/
def freshSheet (c : Canvas) (title body caption : String)
    (nodeDefaults edgeDefaults : List (String × String)) : Sheet where
  frame :=
    { title, uid := String.ofList (c.nameOf title), body, caption,
      nodeDefaults := .ofList nodeDefaults, edgeDefaults := .ofList edgeDefaults }
  context := 0

theorem Kept.act_newGraph (hc : c.Kept) (title body caption : String)
    (nodeDefaults edgeDefaults : List (String × String)) :
    c.act (.newGraph title body caption nodeDefaults edgeDefaults) =
      { c with
        contexts := #[⟨c.nodes.size, c.nameOf title :: c.names.reverse⟩]
        sheets := c.sheets.push (c.freshSheet title body caption nodeDefaults edgeDefaults) } := by
  have hctx : c.context = ⟨c.nodes.size, c.names.reverse⟩ := by
    rw [Canvas.context, hc.context]
    rfl
  simp only [Canvas.act, Canvas.newGraph, Context.newGraph, Context.reserve, hctx, hc.context]
  rfl

theorem nameFor_nameOf (c : Canvas) (title : String) :
    Context.NameFor c.names (uidBase (Text.skeleton title.toList)) (c.nameOf title) := by
  have h := Context.nameFor_freeUid ⟨c.nodes.size, c.names.reverse⟩
    (uidBase (Text.skeleton title.toList))
  unfold nameOf
  simpa only [Context.NameFor, List.mem_reverse] using h

theorem Kept.newGraph (hc : c.Kept) (title body caption : String)
    (nodeDefaults edgeDefaults : List (String × String)) :
    (c.act (.newGraph title body caption nodeDefaults edgeDefaults)).Kept := by
  rw [hc.act_newGraph]
  have hfree := (c.nameFor_nameOf title).not_mem
  have hnew : IsUid (c.nameOf title) := Context.isUid_freeUid _ (isUid_uidBase _)
  have hnames : Canvas.names
      { c with
        contexts := #[⟨c.nodes.size, c.nameOf title :: c.names.reverse⟩]
        sheets := c.sheets.push (c.freshSheet title body caption nodeDefaults edgeDefaults) } =
      c.names ++ [c.nameOf title] := by
    simp [names, freshSheet]
  refine ⟨?_, fun s hs => ?_, ?_, ?_, hc.ids, hc.nodes, fun s hs => ?_⟩
  · rw [hnames]
    simp
  · simp only [Array.toList_push, List.mem_append, List.mem_singleton] at hs
    rcases hs with hs | rfl
    · exact hc.sheetContext s hs
    · rfl
  · rw [hnames, List.nodup_append]
    refine ⟨hc.nodup, List.nodup_singleton _, fun u hu v hv => ?_⟩
    rw [List.mem_singleton.1 hv]
    rintro rfl
    exact hfree hu
  · rw [hnames]
    intro u hu
    rcases List.mem_append.1 hu with hu | hu
    · exact hc.isUid u hu
    · rw [List.mem_singleton.1 hu]
      exact hnew
  · simp only [Array.toList_push, List.mem_append, List.mem_singleton] at hs
    rcases hs with hs | rfl
    · exact hc.sheets s hs
    · exact ⟨Attrs.ordered_ofList _, Attrs.ordered_ofList _, fun k hk => by cases hk⟩

/-! ### New nodes -/

end Canvas

/-- A description with both kinds of label is refused. -/
theorem NodeSpec.toNode_of_both {spec : NodeSpec} (h : spec.label ≠ "" ∧ spec.richLabel ≠ "")
    (id : ℕ) : spec.toNode id =
      .error (.coded .contractViolation "node has both a label and a rich label") :=
  if_pos h

/-- The attributes of a node that is made of a description. -/
def NodeSpec.nodeAttrs (spec : NodeSpec) : Attrs :=
  let a := if spec.label ≠ "" then spec.attrs.insert "label" spec.label else spec.attrs
  if spec.richLabel ≠ "" then a.erase "label" else a

/-- Any other description makes a node of the given number. -/
theorem NodeSpec.toNode_eq (spec : NodeSpec) (h : ¬ (spec.label ≠ "" ∧ spec.richLabel ≠ ""))
    (id : ℕ) : spec.toNode id =
      .ok { id, attrs := spec.nodeAttrs, richLabel := spec.richLabel } := by
  unfold toNode nodeAttrs
  rw [if_neg h]
  split_ifs with hlabel hrich hrich
  · rfl
  · simp [Node.setLabel, not_not.1 hrich]
  · rfl
  · simp [not_not.1 hrich]

theorem NodeSpec.ordered_nodeAttrs {spec : NodeSpec} (h : spec.attrs.Ordered) :
    spec.nodeAttrs.Ordered := by
  unfold nodeAttrs
  dsimp only
  split_ifs
  · exact (h.insert _ _).erase _
  · exact h.erase _
  · exact h.insert _ _
  · exact h

namespace Canvas

variable {c : Canvas}

/-- The canvas with one more node, on the graph `g`. -/
def withNode (c : Canvas) (g : ℕ) (n : Node) : Canvas where
  contexts := #[⟨c.nodes.size + 1, c.names.reverse⟩]
  nodes := c.nodes.push n
  sheets := c.sheets.modify g fun s => { s with nodes := s.nodes ++ [c.nodes.size] }

/-- A new node on a graph of the canvas gets the number of nodes before it, or is refused. -/
theorem Kept.newNode_eq (hc : c.Kept) {g : ℕ} (hg : g < c.sheets.size) (spec : NodeSpec) :
    c.newNode g spec = (spec.toNode c.nodes.size).map fun n => (n, c.withNode g n) := by
  have hs : c.sheets[g]? = some c.sheets[g] := Array.getElem?_eq_getElem hg
  have hzero : c.sheets[g].context = 0 := hc.sheetContext _ (Array.getElem_mem_toList hg)
  have hctx : c.contexts.getD 0 {} = ⟨c.nodes.size, c.names.reverse⟩ := by
    rw [hc.context]
    rfl
  unfold Canvas.newNode
  simp only [hs, hzero, hctx]
  cases spec.toNode c.nodes.size with
  | error f => rfl
  | ok n =>
    simp only [withNode, hc.context]
    rfl

theorem newNode_of_size_le {g : ℕ} (hg : c.sheets.size ≤ g) (spec : NodeSpec) :
    c.newNode g spec = .error (.coded .internal "no such graph") := by
  unfold Canvas.newNode
  rw [Array.getElem?_eq_none hg]

/-- A node that is accepted is drawn with the next number. -/
theorem Kept.act_newNode (hc : c.Kept) {g : ℕ} (hg : g < c.sheets.size) {label richLabel : String}
    (hb : ¬ (label ≠ "" ∧ richLabel ≠ "")) (attrs : List (String × String)) :
    ∃ n, c.newNode g ⟨label, richLabel, .ofList attrs⟩ = .ok (n, c.withNode g n) ∧
      c.act (.newNode g label richLabel attrs) = c.withNode g n ∧ n.id = c.nodes.size ∧
      n.attrs.Ordered := by
  let n : Node :=
    { id := c.nodes.size, attrs := NodeSpec.nodeAttrs ⟨label, richLabel, .ofList attrs⟩, richLabel }
  have h : c.newNode g ⟨label, richLabel, .ofList attrs⟩ = .ok (n, c.withNode g n) := by
    rw [hc.newNode_eq hg, NodeSpec.toNode_eq _ hb]
    rfl
  refine ⟨n, h, ?_, rfl, NodeSpec.ordered_nodeAttrs (Attrs.ordered_ofList _)⟩
  simp only [Canvas.act, h]

theorem Kept.newNode_of_both (hc : c.Kept) {g : ℕ} (hg : g < c.sheets.size)
    {label richLabel : String} (hb : label ≠ "" ∧ richLabel ≠ "")
    (attrs : List (String × String)) : c.newNode g ⟨label, richLabel, .ofList attrs⟩ =
      .error (.coded .contractViolation "node has both a label and a rich label") := by
  rw [hc.newNode_eq hg, NodeSpec.toNode_of_both hb]
  rfl

/-- A node that is refused leaves the canvas as it is. -/
theorem Kept.act_newNode_of_refused (hc : c.Kept) {g : ℕ} {label richLabel : String}
    (hb : ¬ (g < c.sheets.size ∧ ¬ (label ≠ "" ∧ richLabel ≠ "")))
    (attrs : List (String × String)) : c.act (.newNode g label richLabel attrs) = c := by
  by_cases hg : g < c.sheets.size
  · have hboth : label ≠ "" ∧ richLabel ≠ "" := not_not.1 fun h => hb ⟨hg, h⟩
    simp only [Canvas.act, hc.newNode_of_both hg hboth]
  · simp only [Canvas.act, newNode_of_size_le (not_lt.1 hg)]

theorem Kept.withNode (hc : c.Kept) (g : ℕ) {n : Node} (hid : n.id = c.nodes.size)
    (hn : n.attrs.Ordered) : (c.withNode g n).Kept := by
  have hnames : (c.withNode g n).names = c.names := by
    simp only [names, Canvas.withNode, Array.toList_modify]
    exact map_modify _ _ fun s => rfl
  refine ⟨?_, fun s hs => ?_, hnames ▸ hc.nodup, hnames ▸ hc.isUid, ?_, fun m hm => ?_,
    fun s hs => ?_⟩
  · rw [hnames]
    simp [Canvas.withNode]
  · simp only [Canvas.withNode, Array.toList_modify] at hs
    obtain hs | ⟨b, hb, rfl⟩ := mem_modify hs
    · exact hc.sheetContext s hs
    · exact hc.sheetContext b hb
  · simp only [Canvas.withNode, Array.toList_push, Array.size_push, List.map_append, hc.ids,
      List.map_cons, List.map_nil, hid, List.range_succ]
  · simp only [Canvas.withNode, Array.toList_push, List.mem_append, List.mem_singleton] at hm
    rcases hm with hm | rfl
    · exact hc.nodes m hm
    · exact hn
  · simp only [Canvas.withNode, Array.toList_modify] at hs
    obtain hs | ⟨b, hb, rfl⟩ := mem_modify hs
    · exact hc.sheets s hs
    · exact ⟨(hc.sheets b hb).nodeDefaults, (hc.sheets b hb).edgeDefaults,
        (hc.sheets b hb).strokes⟩

theorem Kept.newNode (hc : c.Kept) (g : ℕ) (label richLabel : String)
    (attrs : List (String × String)) : (c.act (.newNode g label richLabel attrs)).Kept := by
  by_cases hb : g < c.sheets.size ∧ ¬ (label ≠ "" ∧ richLabel ≠ "")
  · obtain ⟨n, -, hn, hid, ho⟩ := hc.act_newNode hb.1 hb.2 attrs
    rw [hn]
    exact hc.withNode g hid ho
  · rw [hc.act_newNode_of_refused hb]
    exact hc

/-! ### Every act -/

theorem Kept.act (hc : c.Kept) (a : Act) : (c.act a).Kept := by
  cases a with
  | newGraph title body caption nodeDefaults edgeDefaults =>
    exact hc.newGraph title body caption nodeDefaults edgeDefaults
  | newNode g label richLabel attrs => exact hc.newNode g label richLabel attrs
  | addEdge g source target attrs =>
    refine hc.editSheet g (fun s => rfl) (fun s => rfl)
      fun s hs => ⟨hs.nodeDefaults, hs.edgeDefaults, fun k hk => ?_⟩
    rcases List.mem_append.1 hk with hk | hk
    · exact hs.strokes k hk
    · rw [List.mem_singleton.1 hk]
      exact Attrs.ordered_ofList attrs
  | setLabel n label => exact hc.editNode n (fun m => rfl) fun m hm => hm.insert _ _
  | setRichLabel n label => exact hc.editNode n (fun m => rfl) fun m hm => hm.erase _
  | setPort n port => exact hc.editNode n (fun m => rfl) fun m hm => hm
  | writeNode n w => exact hc.editNode n (fun m => rfl) fun m hm => hm.write w
  | writeEdge g e w =>
    refine hc.editSheet g (fun s => rfl) (fun s => rfl)
      fun s hs => ⟨hs.nodeDefaults, hs.edgeDefaults, fun k hk => ?_⟩
    obtain hk | ⟨b, hb, rfl⟩ := mem_modify hk
    · exact hs.strokes k hk
    · exact (hs.strokes b hb).write w
  | writeNodeDefaults g w =>
    exact hc.editSheet g (fun s => rfl) (fun s => rfl)
      fun s hs => ⟨hs.nodeDefaults.write w, hs.edgeDefaults, hs.strokes⟩
  | writeEdgeDefaults g w =>
    exact hc.editSheet g (fun s => rfl) (fun s => rfl)
      fun s hs => ⟨hs.nodeDefaults, hs.edgeDefaults.write w, hs.strokes⟩

end Canvas

/-- The invariant holds after every sequence of acts. -/
theorem kept_draw (acts : List Act) : (draw acts).Kept :=
  draw_induction Canvas.kept_empty (fun _ a hc => hc.act a) acts

end Dot
end ApiDiagrams
