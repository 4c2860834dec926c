import ApiDiagrams.Dot.Attrs
import ApiDiagrams.Fault

/-!
# Graphs

A directed graph with attributes, and the text of it in the graph language.

* `Node`, `Edge`, `Graph`: the data;
* `Node.setLabel`, `Node.setRichLabel`: a node shows one label at most, plain or HTML-like;
* `Graph.text`: the graph in the graph language.
-/

namespace ApiDiagrams
namespace Dot

/-- A vertex. -/
structure Node where
  /-- The number of the node, unique in its context. -/
  id : Nat
  attrs : Attrs := .empty
  /-- The part of the shape that edges attach to when they do not choose one. -/
  port : String := ""
  /-- The HTML-like label, empty when there is none. -/
  richLabel : String := ""
  deriving DecidableEq, Repr, Inhabited

namespace Node

/-- The plain label, empty when the node has none. -/
def label (n : Node) : String :=
  if n.richLabel ≠ "" then "" else (n.attrs.get? "label").getD ""

/-- Gives the node a plain label in place of any HTML-like one. -/
def setLabel (n : Node) (label : String) : Node :=
  { n with richLabel := "", attrs := n.attrs.insert "label" label }

/-- Gives the node an HTML-like label in place of any plain one. -/
def setRichLabel (n : Node) (label : String) : Node :=
  { n with richLabel := label, attrs := n.attrs.erase "label" }

/-- What stands between the brackets of the node's statement. -/
def clauses (n : Node) : String :=
  if n.richLabel ≠ "" then
    let rest := (n.attrs.erase "label").format
    "label=<" ++ n.richLabel ++ ">" ++ (if rest = "" then "" else "," ++ rest)
  else n.attrs.format

end Node

/-- What a node should look like before it has a number. -/
structure NodeSpec where
  label : String := ""
  richLabel : String := ""
  attrs : Attrs := .empty
  deriving DecidableEq, Repr, Inhabited

/-- Makes a node of a description. A node cannot have both kinds of label. -/
def NodeSpec.toNode (spec : NodeSpec) (id : Nat) : Except Fault Node :=
  if spec.label ≠ "" ∧ spec.richLabel ≠ "" then
    .error (.coded .contractViolation "node has both a label and a rich label")
  else
    let n : Node := { id, attrs := spec.attrs }
    let n := if spec.label ≠ "" then n.setLabel spec.label else n
    .ok (if spec.richLabel ≠ "" then n.setRichLabel spec.richLabel else n)

/-- An end of an edge: the number of a node and its port. -/
structure Endpoint where
  id : Nat
  port : String := ""
  deriving DecidableEq, Repr, Inhabited

/-- The node as an end of an edge. -/
def Node.endpoint (n : Node) : Endpoint := ⟨n.id, n.port⟩

/-- A directed connection. -/
structure Edge where
  source : Endpoint
  target : Endpoint
  attrs : Attrs := .empty
  deriving DecidableEq, Repr, Inhabited

/-- The attributes of an edge with the ports of its ends: that of the source as `headport` and that
of the target as `tailport`, unless the edge sets them. -/
def Edge.portAttrs (e : Edge) : Attrs :=
  let attrs :=
    if !e.attrs.contains "headport" && e.source.port ≠ "" then
      e.attrs.insert "headport" e.source.port
    else e.attrs
  if !e.attrs.contains "tailport" && e.target.port ≠ "" then
    attrs.insert "tailport" e.target.port
  else attrs

/-- A directed graph. -/
structure Graph where
  title : String
  /-- The name of the graph in its context, and of the files made from it. -/
  uid : String
  caption : String := ""
  /-- Text that stands as it is between the defaults and the nodes. -/
  body : String := ""
  nodeDefaults : Attrs := .empty
  edgeDefaults : Attrs := .empty
  nodes : List Node := []
  edges : List Edge := []
  deriving DecidableEq, Repr, Inhabited

/-- What stands between brackets after a statement, nothing when there is nothing to say. -/
def bracketed (clauses : String) : String := if clauses = "" then "" else " [" ++ clauses ++ "]"

/-- The name of a node in the graph language. -/
def nodeName (id : Nat) : String := "node" ++ toString id

/-- The statement of a node, a line. -/
def Node.statement (n : Node) : String := nodeName n.id ++ bracketed n.clauses ++ "\n"

/-- The statement of an edge, a line. -/
def Edge.statement (e : Edge) : String :=
  nodeName e.source.id ++ " -> " ++ nodeName e.target.id ++ bracketed e.portAttrs.format ++ "\n"

namespace Graph

/-- The body as it is written: ended by a line feed if there is any. -/
def bodyText (g : Graph) : String :=
  if g.body = "" then ""
  else if Text.endsWith ['\n'] g.body.toList then g.body else g.body ++ "\n"

/-- The graph in the graph language. -/
def text (g : Graph) : String :=
  "digraph " ++ g.uid ++ " \x7b\n" ++
  "node [" ++ g.nodeDefaults.format ++ "]\n" ++
  "edge [" ++ g.edgeDefaults.format ++ "]\n" ++
  g.bodyText ++
  "/* Nodes */\n" ++ String.join (g.nodes.map Node.statement) ++
  "/* Edges */\n" ++ String.join (g.edges.map Edge.statement) ++
  "\x7d\n"

/-- Adds an edge between two nodes. -/
def addEdge (g : Graph) (source target : Node) (attrs : Attrs) : Graph :=
  { g with edges := g.edges ++ [⟨source.endpoint, target.endpoint, attrs⟩] }

end Graph
end Dot
end ApiDiagrams
