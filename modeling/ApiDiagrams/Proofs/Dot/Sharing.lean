import ApiDiagrams.Proofs.Dot.Linked
import ApiDiagrams.Proofs.Dot.Memory

/-!
# Drawings whose attributes are in memory

Those who draw keep maps of attributes and hand them over, the same one for several elements if they
like, or the one of another element. Each element gets a copy, so that a change in place, of which
linking makes one for each map, reaches one element only. The canvas knows nothing of maps that are
shared; what it shows is what stands in memory after every drawing.

* `Desk`, `Move`, `Desk.move`, `play`: drawing, on the canvas and in memory;
* `Desk.attrs?`: the attributes on the canvas, with one lemma for each move;
* `Desk.Sound`: the invariant, with `Desk.Sound.move` and `sound_play`;
* `link_exact_and_local`: what linking changes, and whose.
-/

namespace ApiDiagrams
namespace Dot

/-! ### Drawings whose maps are in memory -/

/-- The canvas of those who draw, the maps that they have made themselves, and the maps in memory.
What is in memory is never looked up on the canvas, and the canvas never looks into the memory. -/
structure Desk where
  canvas : Canvas := {}
  own : List Attrs := []
  memory : Memory := {}

/-- One move of those who draw. A map is handed over by naming who holds it. -/
inductive Move
  | newContext
  | makeMap (a : Attrs)
  | write (h : Holder) (w : Attrs.Write)
  | newGraph (title body caption : String) (nodeDefaults edgeDefaults : Option Holder)
  | newNode (graph : ℕ) (label richLabel : String) (attrs : Option Holder)
  | addEdge (graph source target : ℕ) (attrs : Option Holder)
  | setLabel (node : ℕ) (label : String)
  | setRichLabel (node : ℕ) (label : String)
  | setPort (node : ℕ) (port : String)
  | link (graph : ℕ) (l : Linker)

/-! ### The attributes on a canvas -/

namespace Sheet

/-- The attributes of a part of a graph. -/
def attrs? (s : Sheet) : Part → Option Attrs
  | .nodeDefaults => some s.frame.nodeDefaults
  | .edgeDefaults => some s.frame.edgeDefaults
  | .edge e => s.strokes[e]?.map (·.attrs)

/-- Changes the attributes of a part of a graph. -/
def editPart (s : Sheet) (p : Part) (f : Attrs → Attrs) : Sheet :=
  match p with
  | .nodeDefaults => { s with frame := { s.frame with nodeDefaults := f s.frame.nodeDefaults } }
  | .edgeDefaults => { s with frame := { s.frame with edgeDefaults := f s.frame.edgeDefaults } }
  | .edge e => { s with strokes := s.strokes.modify e fun k => { k with attrs := f k.attrs } }

theorem attrs?_editPart (s : Sheet) (p : Part) (f : Attrs → Attrs) :
    (s.editPart p f).attrs? = Function.update s.attrs? p ((s.attrs? p).map f) := by
  funext q
  rw [Function.update_apply]
  cases p <;> cases q <;> try rfl
  case edge.edge e e' =>
    simp only [attrs?, editPart, List.getElem?_modify, Part.edge.injEq]
    by_cases he : e' = e
    · subst he
      simp [Function.comp_def]
    · simp [he, Ne.symm he]

end Sheet

/-- A new graph made ready with its options. -/
def Graph.prepared (body caption : String) (nodeDefaults edgeDefaults : Attrs) (g : Graph) : Graph :=
  { g with body, caption, nodeDefaults, edgeDefaults }

/-- The elements of a graph that hold maps, in the order in which they are linked. -/
def Canvas.holders (c : Canvas) (g : ℕ) : List Holder :=
  match c.sheets[g]? with
  | none => []
  | some s => .part g .nodeDefaults :: (s.nodes.map .node ++
      .part g .edgeDefaults :: (List.range s.strokes.length).map fun e => .part g (.edge e))

namespace Desk

/-- The attributes of a holder as the canvas has them. -/
def attrs? (d : Desk) : Holder → Option Attrs
  | .own k => d.own[k]?
  | .node n => d.canvas.nodes[n]?.map (·.attrs)
  | .part g p => d.canvas.sheets[g]?.bind fun s => s.attrs? p

/-- The attributes that are handed over, as the canvas has them. -/
def handed (d : Desk) (source : Option Holder) : Attrs := (source.bind d.attrs?).getD .empty

/-- Changes the attributes of a holder on the canvas. -/
def onCanvas (d : Desk) (h : Holder) (f : Attrs → Attrs) : Desk :=
  match h with
  | .own k => { d with own := d.own.modify k f }
  | .node n => { d with canvas := d.canvas.editNode n fun m => { m with attrs := f m.attrs } }
  | .part g p => { d with canvas := d.canvas.editSheet g fun s => s.editPart p f }

/-- The desk after a move. Each new element gets a copy of the map that was handed over. -/
def move (d : Desk) : Move → Desk
  | .newContext => { d with canvas := d.canvas.newContext }
  | .makeMap a => { d with own := d.own ++ [a], memory := d.memory.give (.own d.own.length) a }
  | .write h w => { d.onCanvas h (·.write w) with memory := d.memory.edit h (·.write w) }
  | .newGraph title body caption nodeDefaults edgeDefaults =>
    let g := d.canvas.sheets.size
    { d with
      canvas := (d.canvas.newGraph title
        (Graph.prepared body caption (d.handed nodeDefaults) (d.handed edgeDefaults))).2
      memory := (d.memory.give (.part g .nodeDefaults) (d.memory.copy nodeDefaults)).give
        (.part g .edgeDefaults) (d.memory.copy edgeDefaults) }
  | .newNode g label richLabel attrs =>
    match d.canvas.newNode g ⟨label, richLabel, d.handed attrs⟩ with
    | .error _ => d
    | .ok (_, c) =>
      let h := .node d.canvas.nodes.size
      let m := d.memory.give h (d.memory.copy attrs)
      let m := if label ≠ "" then m.edit h (·.insert "label" label) else m
      { d with canvas := c, memory := if richLabel ≠ "" then m.edit h (·.erase "label") else m }
  | .addEdge g source target attrs =>
    match d.canvas.sheets[g]? with
    | none => d
    | some s =>
      { d with
        canvas := d.canvas.addEdge g source target (d.handed attrs)
        memory := d.memory.give (.part g (.edge s.strokes.length)) (d.memory.copy attrs) }
  | .setLabel n label =>
    { d with
      canvas := d.canvas.editNode n (·.setLabel label)
      memory := d.memory.edit (.node n) (·.insert "label" label) }
  | .setRichLabel n label =>
    { d with
      canvas := d.canvas.editNode n (·.setRichLabel label)
      memory := d.memory.edit (.node n) (·.erase "label") }
  | .setPort n port => { d with canvas := d.canvas.editNode n fun m => { m with port } }
  | .link g l =>
    { d with
      canvas := d.canvas.link g l
      memory := d.memory.editAll (d.canvas.holders g) (·.link l) }

end Desk

/-- The desk after a sequence of moves. -/
def play (moves : List Move) : Desk := moves.foldl Desk.move {}

/-- The labels are set in the map that was made for the node. -/
theorem NodeSpec.edit_give (m : Memory) (h : Holder) (label richLabel : String) (a : Attrs) :
    (if richLabel ≠ "" then
      (if label ≠ "" then (m.give h a).edit h (·.insert "label" label) else m.give h a).edit h
        (·.erase "label")
    else if label ≠ "" then (m.give h a).edit h (·.insert "label" label) else m.give h a) =
      m.give h (nodeAttrs ⟨label, richLabel, a⟩) := by
  unfold nodeAttrs
  split_ifs <;> simp [Memory.edit_give, *]

namespace Desk

/-! ### The canvas after a move -/

variable {d : Desk}

/-- A change to a node in which its attributes change by `a`. -/
theorem attrs?_editNode (d : Desk) (n : ℕ) {f : Node → Node} {a : Attrs → Attrs}
    (hf : ∀ m, (f m).attrs = a m.attrs) :
    { d with canvas := d.canvas.editNode n f }.attrs? =
      Function.update d.attrs? (.node n) ((d.attrs? (.node n)).map a) := by
  funext h
  rw [Function.update_apply]
  cases h with
  | node n' =>
    simp only [attrs?, Canvas.editNode, Array.getElem?_modify, Holder.node.injEq]
    by_cases hn : n' = n
    · subst hn
      simp [Function.comp_def, hf]
    · simp [hn, Ne.symm hn]
  | _ => rfl

/-- A change to a graph in which the attributes of one part change. -/
theorem attrs?_editSheet (d : Desk) {g : ℕ} {f : Sheet → Sheet} {p : Part} {a : Option Attrs}
    (hf : ∀ s, d.canvas.sheets[g]? = some s → (f s).attrs? = Function.update s.attrs? p a)
    (hnone : d.canvas.sheets[g]? = none → a = none) :
    { d with canvas := d.canvas.editSheet g f }.attrs? =
      Function.update d.attrs? (.part g p) a := by
  funext h
  rw [Function.update_apply]
  cases h with
  | part g' q =>
    simp only [attrs?, Canvas.editSheet, Array.getElem?_modify, Holder.part.injEq]
    by_cases hg : g' = g
    · subst hg
      cases hs : d.canvas.sheets[g']? with
      | none => simp [hnone hs]
      | some s => simp [hf s hs, Function.update_apply]
    · simp [hg, Ne.symm hg]
  | _ => rfl

theorem attrs?_onCanvas (d : Desk) (h : Holder) (f : Attrs → Attrs) :
    (d.onCanvas h f).attrs? = Function.update d.attrs? h ((d.attrs? h).map f) := by
  cases h with
  | own k =>
    funext h
    rw [Function.update_apply]
    cases h with
    | own k' =>
      simp only [attrs?, onCanvas, List.getElem?_modify, Holder.own.injEq]
      by_cases hk : k' = k
      · subst hk
        simp
      · simp [hk, Ne.symm hk]
    | _ => rfl
  | node n => exact attrs?_editNode d n fun m => rfl
  | part g p =>
    refine attrs?_editSheet d (fun s hs => ?_) fun hs => ?_
    · rw [s.attrs?_editPart, attrs?, hs, Option.bind_some]
    · rw [attrs?, hs]
      rfl

theorem attrs?_makeMap (d : Desk) (a : Attrs) :
    { d with own := d.own ++ [a] }.attrs? =
      Function.update d.attrs? (.own d.own.length) (some a) := by
  funext h
  rw [Function.update_apply]
  cases h with
  | own k =>
    simp only [attrs?, Holder.own.injEq]
    exact getElem?_concat d.own a k
  | _ => rfl

theorem attrs?_newGraph (d : Desk) (title : String) (prepare : Graph → Graph) {a b : Attrs}
    (ha : ∀ g, (prepare g).nodeDefaults = a) (hb : ∀ g, (prepare g).edgeDefaults = b) :
    { d with canvas := (d.canvas.newGraph title prepare).2 }.attrs? =
      Function.update (Function.update d.attrs? (.part d.canvas.sheets.size .nodeDefaults) (some a))
        (.part d.canvas.sheets.size .edgeDefaults) (some b) := by
  funext h
  simp only [Function.update_apply]
  cases h with
  | part g p =>
    simp only [attrs?, Canvas.newGraph, Array.getElem?_push, Holder.part.injEq]
    by_cases hg : g = d.canvas.sheets.size
    · subst hg
      cases p <;> simp [Sheet.attrs?, ha, hb]
    · simp [hg]
  | _ => rfl

theorem attrs?_addEdge (d : Desk) {g : ℕ} {s : Sheet} (hs : d.canvas.sheets[g]? = some s)
    (source target : ℕ) (a : Attrs) :
    { d with canvas := d.canvas.addEdge g source target a }.attrs? =
      Function.update d.attrs? (.part g (.edge s.strokes.length)) (some a) := by
  refine attrs?_editSheet d (fun s' hs' => ?_) fun hnone => ?_
  · obtain rfl := Option.some.inj (hs.symm.trans hs')
    funext p
    rw [Function.update_apply]
    cases p with
    | edge e =>
      simp only [Sheet.attrs?, Part.edge.injEq]
      rw [getElem?_concat, apply_ite (Option.map _)]
      rfl
    | _ => rfl
  · rw [hs] at hnone
    cases hnone

theorem attrs?_newNode (d : Desk) {g : ℕ} {spec : NodeSpec} {n : Node} {c : Canvas}
    (h : d.canvas.newNode g spec = .ok (n, c)) :
    { d with canvas := c }.attrs? =
      Function.update d.attrs? (.node d.canvas.nodes.size) (some spec.nodeAttrs) := by
  obtain ⟨-, hattrs, hnodes, hsheets⟩ := Canvas.newNode_eq_ok h
  funext h
  rw [Function.update_apply]
  cases h with
  | own k => rfl
  | node n' =>
    simp only [attrs?, hnodes, Array.getElem?_push, Holder.node.injEq]
    by_cases hn : n' = d.canvas.nodes.size
    · simp [hn, hattrs]
    · simp [hn]
  | part g' p =>
    simp only [attrs?, hsheets, Array.getElem?_modify]
    by_cases hg : g = g'
    · subst hg
      rw [if_pos rfl, Option.bind_map]
      rfl
    · simp [hg]

end Desk

/-! ### Linking -/

theorem Sheet.attrs?_link (s : Sheet) (l : Linker) (p : Part) :
    (s.link l).attrs? p = (s.attrs? p).map (·.link l) := by
  cases p with
  | edge e => simp [attrs?, Sheet.link, Function.comp_def]
  | _ => rfl

namespace Canvas

variable {c : Canvas}

theorem mem_holders_node {g n : ℕ} : .node n ∈ c.holders g ↔ n ∈ c.nodesOf g := by
  unfold holders nodesOf
  cases c.sheets[g]? <;> simp

theorem mem_holders_part {g g' : ℕ} {p : Part} : .part g' p ∈ c.holders g ↔
    g' = g ∧ ∃ s, c.sheets[g]? = some s ∧ s.attrs? p ≠ none := by
  unfold holders
  cases c.sheets[g]? with
  | none => simp
  | some s => cases p <;> simp [Sheet.attrs?, and_comm, eq_comm]

theorem own_not_mem_holders {g k : ℕ} : .own k ∉ c.holders g := by
  unfold holders
  cases c.sheets[g]? <;> simp

theorem Placed.nodup_holders (hc : c.Placed) (g : ℕ) : (c.holders g).Nodup := by
  have hnodup := hc.nodup g
  unfold holders nodesOf at *
  cases hs : c.sheets[g]? with
  | none => exact List.nodup_nil
  | some s =>
    simp only [hs, Option.map_some, Option.getD_some] at hnodup
    have hnodes : (s.nodes.map Holder.node).Nodup :=
      hnodup.map fun _ _ h => Holder.node.inj h
    have hedges : ((List.range s.strokes.length).map fun e => Holder.part g (.edge e)).Nodup :=
      List.nodup_range.map fun _ _ h => by simpa using h
    simp [List.nodup_append, hnodes, hedges]

end Canvas

namespace Desk

theorem attrs?_link {d : Desk} (hd : d.canvas.Placed) (g : ℕ) (l : Linker) (h : Holder) :
    { d with canvas := d.canvas.link g l }.attrs? h =
      if h ∈ d.canvas.holders g then (d.attrs? h).map (·.link l) else d.attrs? h := by
  cases h with
  | own k =>
    rw [if_neg Canvas.own_not_mem_holders]
    rfl
  | node n =>
    simp only [attrs?, Canvas.nodes_link hd, Canvas.mem_holders_node]
    split_ifs
    · rw [Option.map_map, Option.map_map]
      rfl
    · rfl
  | part g' p =>
    simp only [attrs?, Canvas.sheets_link, Canvas.mem_holders_part]
    by_cases hg : g' = g
    · subst hg
      cases hs : d.canvas.sheets[g']? with
      | none => simp
      | some s => cases ha : s.attrs? p <;> simp [Sheet.attrs?_link, ha]
    · simp [hg]

/-! ### Every move -/

/-- The invariant of drawing: every node is drawn once, no map has two holders, and what stands in
memory is what stands on the canvas. -/
structure Sound (d : Desk) : Prop where
  placed : d.canvas.Placed
  unshared : d.memory.Unshared
  agree : d.memory.read = d.attrs?

theorem sound_empty : Sound {} where
  placed := Canvas.placed_empty
  unshared := Memory.unshared_empty
  agree := by
    funext h
    cases h <;> rfl

variable {d : Desk}

theorem Sound.copy_eq (hd : d.Sound) (source : Option Holder) :
    d.memory.copy source = d.handed source := by
  rw [Memory.copy, hd.agree, handed]

/-- A change in place that is made in memory and on the canvas. -/
theorem Sound.edit (hd : d.Sound) {c : Canvas} {own : List Attrs} {h : Holder}
    {f : Attrs → Attrs} (hc : c.Placed)
    (hattrs : Desk.attrs? ⟨c, own, d.memory⟩ = Function.update d.attrs? h ((d.attrs? h).map f)) :
    Sound ⟨c, own, d.memory.edit h f⟩ where
  placed := hc
  unshared := hd.unshared.edit h f
  agree := by
    rw [Memory.read_edit hd.unshared, hd.agree]
    exact hattrs.symm

/-- A new map that is made in memory and on the canvas. -/
theorem Sound.give (hd : d.Sound) {c : Canvas} {own : List Attrs} {h : Holder} {a : Attrs}
    (hc : c.Placed) (hattrs : Desk.attrs? ⟨c, own, d.memory⟩ = Function.update d.attrs? h (some a)) :
    Sound ⟨c, own, d.memory.give h a⟩ where
  placed := hc
  unshared := hd.unshared.give h a
  agree := by
    rw [Memory.read_give hd.unshared, hd.agree]
    exact hattrs.symm

theorem Sound.newGraph (hd : d.Sound) (title body caption : String)
    (nodeDefaults edgeDefaults : Option Holder) :
    (d.move (.newGraph title body caption nodeDefaults edgeDefaults)).Sound where
  placed := hd.placed.newGraph title (Graph.prepared _ _ _ _)
  unshared := (hd.unshared.give _ _).give _ _
  agree := by
    simp only [Desk.move]
    rw [Memory.read_give (hd.unshared.give _ _), Memory.read_give hd.unshared, hd.agree,
      hd.copy_eq, hd.copy_eq]
    exact (attrs?_newGraph d title (Graph.prepared _ _ _ _) (fun _ => rfl) fun _ => rfl).symm

theorem Sound.newNode (hd : d.Sound) (g : ℕ) (label richLabel : String) (attrs : Option Holder) :
    (d.move (.newNode g label richLabel attrs)).Sound := by
  simp only [Desk.move]
  split
  · exact hd
  · rename_i n c h
    rw [hd.copy_eq, NodeSpec.edit_give]
    exact hd.give (hd.placed.newNode h) (attrs?_newNode d h)

theorem Sound.addEdge (hd : d.Sound) (g source target : ℕ) (attrs : Option Holder) :
    (d.move (.addEdge g source target attrs)).Sound := by
  simp only [Desk.move]
  split
  · exact hd
  · rename_i s hs
    rw [hd.copy_eq]
    exact hd.give (hd.placed.editSheet g fun _ => rfl) (attrs?_addEdge d hs source target _)

theorem Sound.link (hd : d.Sound) (g : ℕ) (l : Linker) : (d.move (.link g l)).Sound where
  placed := hd.placed.link g l
  unshared := hd.unshared.editAll _ _
  agree := by
    funext h
    refine (Memory.read_editAll hd.unshared (hd.placed.nodup_holders g) _ h).trans ?_
    rw [hd.agree]
    exact (attrs?_link hd.placed g l h).symm

theorem Sound.move (hd : d.Sound) (m : Move) : (d.move m).Sound := by
  cases m with
  | newContext => exact ⟨hd.placed.congr (fun _ => rfl) rfl, hd.unshared, hd.agree⟩
  | makeMap a => exact hd.give hd.placed (attrs?_makeMap d a)
  | write h w =>
    have hattrs := attrs?_onCanvas d h (·.write w)
    cases h with
    | own k => exact hd.edit hd.placed hattrs
    | node n => exact hd.edit (hd.placed.editNode n _) hattrs
    | part g p =>
      refine hd.edit (hd.placed.editSheet g fun s => ?_) hattrs
      cases p <;> rfl
  | newGraph title body caption nodeDefaults edgeDefaults =>
    exact hd.newGraph title body caption nodeDefaults edgeDefaults
  | newNode g label richLabel attrs => exact hd.newNode g label richLabel attrs
  | addEdge g source target attrs => exact hd.addEdge g source target attrs
  | setLabel n label =>
    exact hd.edit (hd.placed.editNode n _) (attrs?_editNode d n fun m => rfl)
  | setRichLabel n label =>
    exact hd.edit (hd.placed.editNode n _) (attrs?_editNode d n fun m => rfl)
  | setPort n port =>
    refine ⟨hd.placed.editNode n _, hd.unshared, hd.agree.trans ?_⟩
    have hattrs := attrs?_editNode d n (f := fun m => { m with port }) (a := id) fun _ => rfl
    rw [Option.map_id, id, Function.update_eq_self] at hattrs
    exact hattrs.symm
  | link g l => exact hd.link g l

end Desk

theorem sound_play (moves : List Move) : (play moves).Sound := by
  unfold play
  induction moves using List.reverseRecOn with
  | nil => exact Desk.sound_empty
  | append_singleton moves m ih =>
    rw [List.foldl_append]
    exact ih.move m

/-! ### Main result -/

/-- **What linking does to attributes, and to whose.** In a graph, an `href` that is a placeholder
becomes its address or goes, and nothing else changes but the body. After any drawing, with maps
handed over from any holder to any other, what stands in memory is what stands on the canvas; to
link a graph in memory, holder by holder, changes the maps of its own elements and no other map, and
links the graph that the canvas shows and no other graph; and to link a single element changes its
own map only. -/
theorem link_exact_and_local (moves : List Move) (g : ℕ) (l : Linker) :
    (∀ drawn : Graph, drawn.LinkedTo l (drawn.link l)) ∧
    (∀ h, (play moves).memory.read h = (play moves).attrs? h) ∧
    (∀ h, ((play moves).move (.link g l)).memory.read h =
      if h ∈ (play moves).canvas.holders g then ((play moves).memory.read h).map (·.link l)
      else (play moves).memory.read h) ∧
    (∀ h, ((play moves).move (.link g l)).memory.read h =
      ((play moves).move (.link g l)).attrs? h) ∧
    (∀ g', ((play moves).move (.link g l)).canvas.graph? g' =
      if g' = g then ((play moves).canvas.graph? g').map (·.link l)
      else (play moves).canvas.graph? g') ∧
    ∀ h h', h' ≠ h →
      ((play moves).memory.edit h (·.link l)).read h' = (play moves).memory.read h' := by
  have hd := sound_play moves
  have hlinked := hd.link g l
  refine ⟨fun drawn => drawn.linkedTo_link l, congrFun hd.agree, fun h => ?_,
    congrFun hlinked.agree, fun g' => Canvas.graph?_link hd.placed g l g', fun h h' hne => ?_⟩
  · exact Memory.read_editAll hd.unshared (hd.placed.nodup_holders g) _ h
  · rw [Memory.read_edit hd.unshared, Function.update_of_ne hne]

/-- Two graphs with a node each and an edge, all made from one map: the one that is linked gets
addresses, and neither the other graph nor the map that they were made from changes. -/
theorem link_of_one_map :
    let moves : List Move :=
      [.makeMap (.ofList [("color", "red"), ("href", "<a.b>")]), .newGraph "a" "" "" none none,
        .newGraph "b" "" "" none (some (.own 0)), .newNode 0 "x" "" (some (.own 0)),
        .newNode 1 "" "<I>y</I>" (some (.own 0)), .addEdge 0 0 0 (some (.own 0))]
    let l : Linker := fun name => if name = "a.b" then some "a.html" else none
    let linked := ((play moves).move (.link 0 l)).memory
    linked.read (.node 0) =
        some (.ofList [("color", "red"), ("href", "a.html"), ("label", "x")]) ∧
      linked.read (.part 0 (.edge 0)) = some (.ofList [("color", "red"), ("href", "a.html")]) ∧
      linked.read (.node 1) = some (.ofList [("color", "red"), ("href", "<a.b>")]) ∧
      linked.read (.part 1 .edgeDefaults) = some (.ofList [("color", "red"), ("href", "<a.b>")]) ∧
      linked.read (.own 0) = some (.ofList [("color", "red"), ("href", "<a.b>")]) := by
  intro moves l linked
  obtain ⟨-, -, hread, -⟩ := link_exact_and_local moves 0 l
  refine ⟨(hread _).trans ?_, (hread _).trans ?_, (hread _).trans ?_, (hread _).trans ?_,
    (hread _).trans ?_⟩ <;> decide

end Dot
end ApiDiagrams
