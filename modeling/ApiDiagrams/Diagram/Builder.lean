import ApiDiagrams.Diagram.Style
import ApiDiagrams.Dot.Context
import ApiDiagrams.Dot.Link
import ApiDiagrams.Index
import ApiDiagrams.Log
import ApiDiagrams.Render.Version
import ApiDiagrams.Text.Blank
import ApiDiagrams.Text.LetterCase
import ApiDiagrams.Text.Quoted

/-!
# Building diagrams: what all kinds share

* `Kind`: the kinds of diagram; `Options`: what a request may choose;
* `Builder`: the index, the pages and the layout tool that diagrams are built for;
* `Builder.addNodes`: one styled node per entity, in the order of names;
* `addEdges`: each edge once, in the order of node numbers;
* `nameList`: names joined for a title;
* `reachable`: breadth-first search.

Sets of entities are lists without repetitions, and whatever order they come in, nodes and edges
are sorted before they are added.
-/

namespace ApiDiagrams
namespace Diagram

/-- The kinds of diagram. -/
inductive Kind
  | packageTree
  | classTree
  | importGraph
  | callGraph
  deriving DecidableEq, Repr, Inhabited

namespace Kind

/-- The word for a kind. -/
def text : Kind → String
  | .packageTree => "package-tree"
  | .classTree => "class-tree"
  | .importGraph => "import-graph"
  | .callGraph => "call-graph"

/-- All kinds. -/
def all : List Kind := [.packageTree, .classTree, .importGraph, .callGraph]

/-- The kind of exactly this name. -/
def ofText? (s : String) : Option Kind := all.find? fun k => k.text == s

/-- The kind that a text names, whatever its case and the blanks around it. -/
def parse (s : String) : Except Fault Kind :=
  match ofText? (Text.lowerText (Text.trimText s)) with
  | some k => .ok k
  | none => .error (.coded .invalidGraphKind
      ("unknown graph kind " ++ Text.quote s ++ " (want one of " ++
        String.intercalate ", " (all.map text) ++ ")"))

end Kind

/-- The style of package trees that nests icons. -/
def umlStyle : String := "uml"

/-- The style of package trees that joins icons with lines. -/
def treeStyle : String := "tree"

/-- What a request for a diagram may choose. -/
structure Options where
  /-- The layout direction, empty for that of the kind. -/
  dir : String := ""
  /-- The style of a package tree, empty for the best one available. -/
  style : String := ""
  addCallers : Bool := false
  addCallees : Bool := false
  /-- The entity that the surrounding page documents. -/
  current : Option EntityId := none
  deriving DecidableEq, Repr, Inhabited

/-- What diagrams are built for. -/
structure Builder where
  index : Index
  /-- The pages that nodes lead to, if there are any. -/
  linker : Option Dot.Linker := none
  version : Render.Version := .unknown

namespace Builder

/-- The layout tool knows HTML-like labels. -/
def htmlLabels (b : Builder) : Bool := b.version.atLeast ⟨[2]⟩

/-- The page of an entity, empty when it has none. -/
def urlFor (b : Builder) (i : EntityId) : String :=
  match b.linker with
  | none => ""
  | some l => (l (b.index.nameOf i).text).getD ""

/-- The address that the node of an entity leads to. -/
def hrefFor (b : Builder) (i : EntityId) : String :=
  let url := b.urlFor i
  if url = "" then noopUrl else url

/-- What the node of an entity looks like, judged by what the entity stands for. -/
def shapeOf (b : Builder) (i : EntityId) : Shape :=
  match (b.index.entity (b.index.resolve i)).kind with
  | .module => .module
  | .routine => .routine
  | _ => .other

/-- The style of the node for an entity, when the page documents `current`. -/
def styleOf (b : Builder) (current : Option EntityId) (i : EntityId) : NodeStyle :=
  let context := (current.map b.index.nameOf).getD ⟨[]⟩
  NodeStyle.of
    { shape := b.shapeOf i
      label := ((b.index.nameOf i).relativeTo context).text
      fullName := (b.index.nameOf i).text
      url := b.urlFor i
      current := current == some (b.index.resolve i)
      htmlLabels := b.htmlLabels }

/-- The entities in the order of their names. -/
def sortByName (b : Builder) (set : List EntityId) : List EntityId :=
  set.mergeSort fun i j => (b.index.nameOf i).le (b.index.nameOf j)

end Builder

/-- The nodes that stand for entities. -/
abbrev NodeTable := List (EntityId × Dot.Node)

/-- The node that a style describes. -/
def NodeStyle.toNode (style : NodeStyle) (id : Nat) : Dot.Node :=
  let n : Dot.Node := { id, attrs := style.attrs, port := style.port }
  if style.richLabel ≠ "" then n.setRichLabel style.richLabel
  else if style.label ≠ "" then n.setLabel style.label
  else n

/-- Adds one node with a style. -/
def addStyled (style : NodeStyle) (g : Dot.Graph) (c : Dot.Context) :
    Dot.Node × Dot.Graph × Dot.Context :=
  let n := style.toNode c.nextId
  (n, { g with nodes := g.nodes ++ [n] }, { c with nextId := c.nextId + 1 })

/-- Adds one styled node per entity of a list, in the order of the list. -/
def addStyledNodes (style : EntityId → NodeStyle) :
    List EntityId → Dot.Graph → Dot.Context → NodeTable × Dot.Graph × Dot.Context
  | [], g, c => ([], g, c)
  | i :: rest, g, c =>
    let (n, g, c) := addStyled (style i) g c
    let (table, g, c) := addStyledNodes style rest g c
    ((i, n) :: table, g, c)

/-- Adds one styled node per entity of a set, in the order of names. -/
def Builder.addNodes (b : Builder) (set : List EntityId) (current : Option EntityId)
    (g : Dot.Graph) (c : Dot.Context) : NodeTable × Dot.Graph × Dot.Context :=
  addStyledNodes (b.styleOf (current.map b.index.resolve)) (b.sortByName set) g c

/-- The edges between entities that both have nodes, each once. -/
def edgesBetween (table : NodeTable) (pairs : List (EntityId × EntityId)) :
    List (Dot.Node × Dot.Node) :=
  pairs.eraseDups.filterMap fun (i, j) => do
    let source ← table.lookup i
    let target ← table.lookup j
    return (source, target)

/-- The order of edges: by source, then by target. -/
def edgeLe (a b : Dot.Node × Dot.Node) : Bool :=
  a.1.id < b.1.id || (a.1.id == b.1.id && a.2.id ≤ b.2.id)

/-- Adds edges, each once, ordered by source and target. -/
def addEdges (table : NodeTable) (pairs : List (EntityId × EntityId)) (attrs : Dot.Attrs)
    (g : Dot.Graph) : Dot.Graph :=
  ((edgesBetween table pairs).mergeSort edgeLe).foldl
    (fun g (source, target) => g.addEdge source target attrs) g

/-- Adds a layout direction to the body of a graph, unless it is the layout tool's own. -/
def withDirection (g : Dot.Graph) (dir default_ : String) : Dot.Graph :=
  let dir := if dir = "" then default_ else dir
  if dir = "TB" then g else { g with body := g.body ++ "rankdir=" ++ dir ++ "\n" }

/-- Texts joined for a title: `A`, `A and B`, `A, B, and C`. -/
def joinNames : List String → String
  | [] => ""
  | [a] => a
  | [a, b] => a ++ " and " ++ b
  | names => String.intercalate ", " names.dropLast ++ ", and " ++ names.getLastD ""

/-- Names joined for a title, as they are written inside a context. -/
def nameList (names : List Name) (context : Name) : String :=
  joinNames (names.map fun n => (n.relativeTo context).text)

/-- The names of entities joined for a title. -/
def Builder.titleNames (b : Builder) (targets : List EntityId) (current : Option EntityId) :
    String :=
  nameList (targets.map b.index.nameOf) ((current.map b.index.nameOf).getD ⟨[]⟩)

/-- Breadth-first search: everything reachable from the queue through `next`, after what was seen
before. Every entity enters the queue once, so as many steps as there are entities and queued ones
suffice. -/
def reachFrom (next : EntityId → List EntityId) :
    (fuel : Nat) → (queue seen : List EntityId) → List EntityId
  | 0, _, seen => seen
  | _ + 1, [], seen => seen
  | fuel + 1, i :: queue, seen =>
    let new := ((next i).filter fun j => !seen.contains j).eraseDups
    reachFrom next fuel (queue ++ new) (seen ++ new)

/-- Everything reachable from the seeds through `next`, the seeds included, each once. -/
def reachable (size : Nat) (next : EntityId → List EntityId) (seeds : List EntityId) :
    List EntityId :=
  reachFrom next (size + seeds.length + 1) seeds seeds.eraseDups

end Diagram
end ApiDiagrams
