import ApiDiagrams.Diagram.Builder

/-!
# Import graphs

The given modules, with an edge from each module to those that import from it. An imported name is
taken for the longest of its beginnings that names a module.
-/

namespace ApiDiagrams
namespace Diagram
namespace Builder

/-- The imports among modules: from what is imported to what imports it. -/
def importPairs (b : Builder) (modules : List EntityId) : List (EntityId × EntityId) :=
  modules.flatMap fun m =>
    (b.index.entity m).imports.filterMap fun name => (b.index.longestModule name).map (·, m)

/-- An import graph. -/
def importGraph (b : Builder) (modules : List EntityId) (opts : Options) (c : Dot.Context) :
    Dot.Graph × Dot.Context :=
  let (g, c) := c.newGraph "Import Graph"
  let g := { g with body := "ranksep=.3\nnodesep=.3\n" }
  let g := withDirection g opts.dir "RL"
  let (table, g, c) := b.addNodes modules.eraseDups opts.current g c
  (addEdges table (b.importPairs modules) .empty g, c)

end Builder
end Diagram
end ApiDiagrams
