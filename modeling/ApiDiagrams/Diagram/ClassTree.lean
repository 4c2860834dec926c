import ApiDiagrams.Diagram.Builder

/-!
# Class trees

Classes with all their subclasses and all their bases. Edges join each class to its direct
subclasses. The universal root class is left out.
-/

namespace ApiDiagrams
namespace Diagram
namespace Builder

/-- The targets, everything derived from them and everything that they derive from. -/
def classFamily (b : Builder) (targets : List EntityId) : List EntityId :=
  let size := b.index.entities.size
  (reachable size (fun i => (b.index.entity i).subclasses) targets ++
    reachable size (fun i => (b.index.entity i).bases) targets).eraseDups

/-- The entity is a class to be drawn. -/
def isDrawnClass (b : Builder) (i : EntityId) : Bool :=
  (b.index.entity i).kind = .classType && !(b.index.entity i).isRoot

/-- A class tree. -/
def classTree (b : Builder) (targets : List EntityId) (opts : Options) (c : Dot.Context) :
    Dot.Graph × Dot.Context :=
  let (g, c) := c.newGraph ("Class Hierarchy for " ++ b.titleNames targets opts.current)
  let g := { g with
    body := "ranksep=0.3\n", edgeDefaults := .ofList [("sametail", "true"), ("dir", "none")] }
  let g := withDirection g opts.dir "TB"
  let classes := (b.classFamily targets).filter b.isDrawnClass
  let (table, g, c) := b.addNodes classes opts.current g c
  let pairs := classes.flatMap fun i => (b.index.entity i).subclasses.map fun s => (i, s)
  (addEdges table pairs .empty g, c)

end Builder
end Diagram
end ApiDiagrams
