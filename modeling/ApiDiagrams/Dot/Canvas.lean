import ApiDiagrams.Dot.Context
import ApiDiagrams.Dot.Link

/-!
# Drawing several graphs at once

A canvas holds graphs that are being drawn side by side. Graphs and nodes are numbered in the order
in which they are made, over the whole canvas. An edge may join any two nodes of the canvas, and a
change to a node shows in every graph that draws it.

* `Canvas`: the contexts, the nodes and the sheets;
* `Canvas.graph?`: one graph as it stands;
* `Canvas.newGraph`, `Canvas.newNode`, `Canvas.addEdge`, `Canvas.editNode`, `Canvas.link`: drawing.
-/

namespace ApiDiagrams
namespace Dot

/-- An edge between two nodes of a canvas, by their numbers on it. -/
structure Stroke where
  source : Nat
  target : Nat
  attrs : Attrs := .empty
  deriving DecidableEq, Repr, Inhabited

/-- A graph on a canvas: what belongs to it alone, and the numbers of its nodes. -/
structure Sheet where
  /-- The graph without its nodes and edges. -/
  frame : Graph
  /-- The number of its context. -/
  context : Nat
  nodes : List Nat := []
  strokes : List Stroke := []
  deriving DecidableEq, Repr, Inhabited

/-- Graphs that are drawn side by side. -/
structure Canvas where
  contexts : Array Context := #[{}]
  nodes : Array Node := #[]
  sheets : Array Sheet := #[]
  deriving DecidableEq, Repr, Inhabited

namespace Canvas

/-- The context that new graphs belong to. -/
def context (c : Canvas) : Context := c.contexts.back?.getD {}

/-- Starts a new context for the graphs to come. -/
def newContext (c : Canvas) : Canvas := { c with contexts := c.contexts.push {} }

/-- A node by its number on the canvas. -/
def node (c : Canvas) (n : Nat) : Node := c.nodes.getD n default

/-- A graph as it stands. -/
def graph? (c : Canvas) (g : Nat) : Option Graph :=
  c.sheets[g]?.map fun s =>
    { s.frame with
      nodes := s.nodes.map c.node
      edges := s.strokes.map fun e =>
        ⟨(c.node e.source).endpoint, (c.node e.target).endpoint, e.attrs⟩ }

/-- Starts a new graph, made ready by `prepare`. -/
def newGraph (c : Canvas) (title : String) (prepare : Graph → Graph) : Graph × Canvas :=
  let (g, ctx) := c.context.newGraph title
  let g := prepare g
  (g, { c with
    contexts := c.contexts.setIfInBounds (c.contexts.size - 1) ctx
    sheets := c.sheets.push { frame := g, context := c.contexts.size - 1 } })

/-- Changes what belongs to a graph alone. -/
def editGraph (c : Canvas) (g : Nat) (f : Graph → Graph) : Canvas :=
  { c with sheets := c.sheets.modify g fun s => { s with frame := f s.frame } }

/-- Draws a node in a graph. -/
def newNode (c : Canvas) (g : Nat) (spec : NodeSpec) : Except Fault (Node × Canvas) := do
  match c.sheets[g]? with
  | none => .error (.coded .internal "no such graph")
  | some s =>
    let ctx := c.contexts.getD s.context {}
    let n ← spec.toNode ctx.nextId
    return (n, { c with
      contexts := c.contexts.setIfInBounds s.context { ctx with nextId := ctx.nextId + 1 }
      nodes := c.nodes.push n
      sheets := c.sheets.modify g fun s => { s with nodes := s.nodes ++ [c.nodes.size] } })

/-- Draws an edge in a graph. -/
def addEdge (c : Canvas) (g source target : Nat) (attrs : Attrs) : Canvas :=
  { c with sheets := c.sheets.modify g fun s =>
      { s with strokes := s.strokes ++ [⟨source, target, attrs⟩] } }

/-- Changes a node wherever it is drawn. -/
def editNode (c : Canvas) (n : Nat) (f : Node → Node) : Canvas :=
  { c with nodes := c.nodes.modify n f }

/-- Links a graph: its defaults, its nodes, its edges and its body. -/
def link (c : Canvas) (g : Nat) (l : Linker) : Canvas :=
  match c.sheets[g]? with
  | none => c
  | some s =>
    let c := s.nodes.foldl (fun c n => c.editNode n fun m => { m with attrs := m.attrs.link l }) c
    { c with sheets := c.sheets.modify g fun s =>
        { s with
          frame := s.frame.link l
          strokes := s.strokes.map fun e => { e with attrs := e.attrs.link l } } }

end Canvas
end Dot
end ApiDiagrams
