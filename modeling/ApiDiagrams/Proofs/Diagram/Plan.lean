import ApiDiagrams.Diagram.Build
import Mathlib.Tactic

/-!
# Diagrams as plans

All kinds of diagram are drawn in the same way: a graph with a title and some settings, one styled
node per entity of a list, numbered one after the other, and the edges between those pairs of
entities that both have nodes.

* `Plan`: what a diagram is drawn from, and `Plan.draw`;
* `addStyledNodes_eq`, `addEdges_eq`: what the two loops add to a graph;
* `Builder.plan`: the plan of every kind of diagram;
* `Builder.buildKind_eq_draw`: a diagram is what its plan draws.
-/

namespace ApiDiagrams
namespace Diagram

/-! ### Nodes and edges -/

/-- The nodes of some entities, numbered from `k` on. -/
def nodesFrom (style : EntityId → NodeStyle) (k : ℕ) (is : List EntityId) : List Dot.Node :=
  is.mapIdx fun j i => (style i).toNode (k + j)

theorem nodesFrom_cons (style : EntityId → NodeStyle) (k : ℕ) (i : EntityId)
    (is : List EntityId) :
    nodesFrom style k (i :: is) = (style i).toNode k :: nodesFrom style (k + 1) is := by
  unfold nodesFrom
  rw [List.mapIdx_cons]
  simp [Nat.add_assoc, Nat.add_comm 1]

@[simp]
theorem length_nodesFrom (style : EntityId → NodeStyle) (k : ℕ) (is : List EntityId) :
    (nodesFrom style k is).length = is.length := by
  simp [nodesFrom]

@[simp]
theorem NodeStyle.id_toNode (s : NodeStyle) (k : ℕ) : (s.toNode k).id = k := by
  unfold NodeStyle.toNode
  split_ifs <;> rfl

/-- The numbers are consecutive. -/
theorem map_id_nodesFrom (style : EntityId → NodeStyle) (k : ℕ) (is : List EntityId) :
    (nodesFrom style k is).map Dot.Node.id = List.range' k is.length := by
  induction is generalizing k with
  | nil => rfl
  | cons i is ih => simp [nodesFrom_cons, ih, List.range'_succ]

theorem addStyledNodes_eq (style : EntityId → NodeStyle) (is : List EntityId) (g : Dot.Graph)
    (c : Dot.Context) : addStyledNodes style is g c =
      (is.zip (nodesFrom style c.nextId is),
        { g with nodes := g.nodes ++ nodesFrom style c.nextId is },
        { c with nextId := c.nextId + is.length }) := by
  induction is generalizing g c with
  | nil => simp [addStyledNodes, nodesFrom]
  | cons i is ih =>
    simp only [addStyledNodes, addStyled, ih, nodesFrom_cons]
    simp [Nat.add_assoc, Nat.add_comm 1]

/-- The edges between the nodes of pairs, in the order of the numbers of their ends. -/
def edgesOf (table : NodeTable) (pairs : List (EntityId × EntityId)) (attrs : Dot.Attrs) :
    List Dot.Edge :=
  ((edgesBetween table pairs).mergeSort edgeLe).map fun e => ⟨e.1.endpoint, e.2.endpoint, attrs⟩

theorem addEdges_eq (table : NodeTable) (pairs : List (EntityId × EntityId)) (attrs : Dot.Attrs)
    (g : Dot.Graph) :
    addEdges table pairs attrs g = { g with edges := g.edges ++ edgesOf table pairs attrs } := by
  unfold addEdges edgesOf
  induction (edgesBetween table pairs).mergeSort edgeLe generalizing g with
  | nil => simp
  | cons e es ih =>
    rw [List.foldl_cons, ih]
    simp [Dot.Graph.addEdge]

@[simp]
theorem edgesOf_nil (table : NodeTable) (attrs : Dot.Attrs) : edgesOf table [] attrs = [] := by
  simp [edgesOf, edgesBetween]

/-! ### Plans -/

/-- What a diagram is drawn from. -/
structure Plan where
  title : String
  body : String := ""
  nodeDefaults : Dot.Attrs := .empty
  edgeDefaults : Dot.Attrs := .empty
  /-- How the node of an entity looks. -/
  style : EntityId → NodeStyle
  /-- The entities that have nodes, in the order of the nodes. -/
  entities : List EntityId := []
  /-- The pairs of entities that edges join. -/
  pairs : List (EntityId × EntityId) := []
  edgeAttrs : Dot.Attrs := .empty

namespace Plan

/-- The nodes of a plan, numbered from `k` on. -/
def nodes (p : Plan) (k : ℕ) : List Dot.Node := nodesFrom p.style k p.entities

/-- The edges of a plan whose nodes are numbered from `k` on. -/
def edges (p : Plan) (k : ℕ) : List Dot.Edge :=
  edgesOf (p.entities.zip (p.nodes k)) p.pairs p.edgeAttrs

/-- Draws a plan. -/
def draw (p : Plan) (c : Dot.Context) : Dot.Graph × Dot.Context :=
  ({ (c.newGraph p.title).1 with
      body := p.body
      nodeDefaults := p.nodeDefaults
      edgeDefaults := p.edgeDefaults
      nodes := p.nodes c.nextId
      edges := p.edges c.nextId },
    { (c.newGraph p.title).2 with nextId := c.nextId + p.entities.length })

end Plan

/-- The line of a body that sets the layout direction, empty when that is the layout tool's own. -/
def directionLine (dir default_ : String) : String :=
  let dir := if dir = "" then default_ else dir
  if dir = "TB" then "" else "rankdir=" ++ dir ++ "\n"

theorem withDirection_eq (g : Dot.Graph) (dir default_ : String) :
    withDirection g dir default_ = { g with body := g.body ++ directionLine dir default_ } := by
  unfold withDirection directionLine
  dsimp only
  split_ifs <;> simp [String.append_assoc]

/-! ### The plans of all kinds -/

namespace Builder

variable (b : Builder) (targets : List EntityId) (opts : Options)

/-- The style of the node for an entity under the options of a request. -/
def nodeStyle : EntityId → NodeStyle := b.styleOf (opts.current.map b.index.resolve)

/-- Package trees are drawn as nested icons. -/
def nests : Bool := (opts.style = "" || opts.style = umlStyle) && b.htmlLabels

/-- The packages that lie in no other one of the list, judged by their names. -/
def outermost : List EntityId := targets.filter fun p => !b.isDominated targets p

/-- The classes of a class tree. -/
def drawnClasses : List EntityId := (b.classFamily targets).filter b.isDrawnClass

/-- The plan of a class tree. -/
def classPlan : Plan where
  title := "Class Hierarchy for " ++ b.titleNames targets opts.current
  body := "ranksep=0.3\n" ++ directionLine opts.dir "TB"
  edgeDefaults := .ofList [("sametail", "true"), ("dir", "none")]
  style := b.nodeStyle opts
  entities := b.sortByName (b.drawnClasses targets)
  pairs := (b.drawnClasses targets).flatMap fun i => (b.index.entity i).subclasses.map fun s => (i, s)

/-- The title of a package tree. -/
def packageTitle : String := "Package Tree for " ++ b.titleNames targets opts.current

/-- The plan of a package tree of nested icons. -/
def nestedPlan : Plan where
  title := b.packageTitle targets opts
  style := b.packageStyle (opts.current.map b.index.resolve)
  entities := b.outermost targets

/-- The plan of a package tree of joined icons. -/
def plainPlan : Plan where
  title := b.packageTitle targets opts
  body := "ranksep=.3\nnodesep=.1\n" ++ directionLine opts.dir "TB"
  edgeDefaults := .ofList [("dir", "none")]
  style := b.nodeStyle opts
  entities := b.sortByName (b.packagesBelow targets)
  pairs := (b.packagesBelow targets).flatMap fun m =>
    (b.index.entity m).submodules.map fun s => (m, s)
  edgeAttrs := .ofList [("headport", "tab")]

/-- The plan of an import graph. -/
def importPlan : Plan where
  title := "Import Graph"
  body := "ranksep=.3\nnodesep=.3\n" ++ directionLine opts.dir "RL"
  style := b.nodeStyle opts
  entities := b.sortByName targets.eraseDups
  pairs := b.importPairs targets

/-- The plan of a call graph when a profile was taken. -/
def callPlan : Plan where
  title := "Call Graph for " ++ b.titleNames targets opts.current
  body := directionLine opts.dir "LR"
  nodeDefaults := .ofList [("shape", "box"), ("width", "0"), ("height", "0")]
  style := b.nodeStyle opts
  entities := b.sortByName (b.callSet (b.profiledRoutines targets) opts)
  pairs := b.callPairs (b.profiledRoutines targets)

/-- The plan of a call graph when no profile was taken. -/
def unprofiledPlan : Plan where
  title := "Call Graph"
  style := b.nodeStyle opts

/-- The plan of the diagram of a kind. -/
def plan : Kind → Plan
  | .packageTree => if b.nests opts then b.nestedPlan targets opts else b.plainPlan targets opts
  | .classTree => b.classPlan targets opts
  | .importGraph => b.importPlan targets opts
  | .callGraph =>
    if b.index.hasProfile then b.callPlan targets opts else b.unprofiledPlan opts

/-- There are six plans. -/
theorem plan_cases (kind : Kind) : b.plan targets opts kind = b.nestedPlan targets opts ∨
    b.plan targets opts kind = b.plainPlan targets opts ∨
    b.plan targets opts kind = b.classPlan targets opts ∨
    b.plan targets opts kind = b.importPlan targets opts ∨
    b.plan targets opts kind = b.callPlan targets opts ∨
    b.plan targets opts kind = b.unprofiledPlan opts := by
  cases kind with
  | packageTree =>
    unfold plan
    by_cases hn : b.nests opts = true
    · simp [hn]
    · simp [hn]
  | classTree => simp [plan]
  | importGraph => simp [plan]
  | callGraph =>
    unfold plan
    by_cases hp : b.index.hasProfile = true
    · simp [hp]
    · simp [hp]

variable (c : Dot.Context)

/-- A graph without edges needs no more than its nodes. -/
theorem nestedTree_eq_draw :
    b.nestedTree (b.packageTitle targets opts) targets opts.current c =
      (b.nestedPlan targets opts).draw c := by
  have hedges : (b.nestedPlan targets opts).edges c.nextId = [] := edgesOf_nil _ _
  simp only [nestedTree, addStyledNodes_eq, Plan.draw, hedges]
  rfl

theorem plainTree_eq_draw :
    b.plainTree (b.packageTitle targets opts) targets opts c =
      (b.plainPlan targets opts).draw c := by
  simp only [plainTree, addNodes, addStyledNodes_eq, addEdges_eq, withDirection_eq]
  rfl

theorem classTree_eq_draw : b.classTree targets opts c = (b.classPlan targets opts).draw c := by
  simp only [classTree, addNodes, addStyledNodes_eq, addEdges_eq, withDirection_eq]
  rfl

theorem importGraph_eq_draw :
    b.importGraph targets opts c = (b.importPlan targets opts).draw c := by
  simp only [importGraph, addNodes, addStyledNodes_eq, addEdges_eq, withDirection_eq]
  rfl

theorem callGraph_eq_draw (h : b.index.hasProfile = true) :
    b.callGraph targets opts c =
      (((b.callPlan targets opts).draw c).1, ((b.callPlan targets opts).draw c).2, []) := by
  simp only [callGraph, h, addNodes, addStyledNodes_eq, addEdges_eq, withDirection_eq]
  rfl

theorem callGraph_eq_draw_unprofiled (h : b.index.hasProfile = false) :
    b.callGraph targets opts c =
      (((b.unprofiledPlan opts).draw c).1, ((b.unprofiledPlan opts).draw c).2,
        [noProfileWarning]) := by
  have hedges : (b.unprofiledPlan opts).edges c.nextId = [] := edgesOf_nil _ _
  simp only [callGraph, h, Plan.draw, hedges]
  rfl

theorem packageTree_eq_draw : ∃ log, b.packageTree targets opts c =
    (((b.plan targets opts .packageTree).draw c).1,
      ((b.plan targets opts .packageTree).draw c).2, log) := by
  by_cases hn : b.nests opts = true
  · simp only [plan, if_pos hn, ← nestedTree_eq_draw]
    unfold nests at hn
    rw [packageTree, if_pos hn]
    exact ⟨_, rfl⟩
  · simp only [plan, if_neg hn, ← plainTree_eq_draw]
    unfold nests at hn
    rw [packageTree, if_neg hn]
    exact ⟨_, rfl⟩

/-- A diagram is what its plan draws. -/
theorem buildKind_eq_draw (kind : Kind) : ∃ log, b.buildKind kind targets opts c =
    ⟨((b.plan targets opts kind).draw c).1, ((b.plan targets opts kind).draw c).2, log⟩ := by
  cases kind with
  | packageTree =>
    obtain ⟨log, h⟩ := b.packageTree_eq_draw targets opts c
    rw [buildKind, h]
    exact ⟨log, rfl⟩
  | classTree =>
    rw [buildKind, classTree_eq_draw]
    exact ⟨[], rfl⟩
  | importGraph =>
    rw [buildKind, importGraph_eq_draw]
    exact ⟨[], rfl⟩
  | callGraph =>
    cases hp : b.index.hasProfile with
    | true =>
      rw [buildKind, b.callGraph_eq_draw targets opts c hp, plan, if_pos hp]
      exact ⟨[], rfl⟩
    | false =>
      rw [buildKind, b.callGraph_eq_draw_unprofiled targets opts c hp, plan, if_neg (by simp [hp])]
      exact ⟨[noProfileWarning], rfl⟩

end Builder
end Diagram
end ApiDiagrams
