import ApiDiagrams.Diagram.Builder

/-!
# Call graphs

The routines among the targets that take part in recorded calls, on request with their callers and
their callees. A module or a class stands for its routine members, and a variable for its value.
-/

namespace ApiDiagrams
namespace Diagram
namespace Builder

/-- The routines that a target stands for. -/
def routinesOf (b : Builder) (target : EntityId) : List EntityId :=
  let i := b.index.resolve target
  let e := b.index.entity i
  if e.kind = .routine then [i]
  else if e.isNamespace then
    (e.members.map b.index.resolve).filter fun m => (b.index.entity m).kind = .routine
  else []

/-- The routines that the targets stand for and that take part in recorded calls. -/
def profiledRoutines (b : Builder) (targets : List EntityId) : List EntityId :=
  (targets.flatMap b.routinesOf).filter b.index.isProfiled

/-- The routines of a call graph: the profiled ones, and on request their partners. -/
def callSet (b : Builder) (routines : List EntityId) (opts : Options) : List EntityId :=
  (routines ++
    (if opts.addCallers then routines.flatMap b.index.callers else []) ++
    (if opts.addCallees then routines.flatMap b.index.callees else [])).eraseDups

/-- The recorded calls that the routines take part in. -/
def callPairs (b : Builder) (routines : List EntityId) : List (EntityId × EntityId) :=
  routines.flatMap fun f =>
    (b.index.callers f).map (·, f) ++ (b.index.callees f).map (f, ·)

/-- The warning about a missing profile. -/
def noProfileWarning : Log.Record :=
  ⟨.warn, "Call graph is empty",
    [("err", .text (Fault.coded .noProfile "no profiling information for call graph").text)]⟩

/-- A call graph. Without a profile it is empty, and a warning says so. -/
def callGraph (b : Builder) (targets : List EntityId) (opts : Options) (c : Dot.Context) :
    Dot.Graph × Dot.Context × List Log.Record :=
  if !b.index.hasProfile then
    let (g, c) := c.newGraph "Call Graph"
    (g, c, [noProfileWarning])
  else
    let routines := b.profiledRoutines targets
    let (g, c) := c.newGraph ("Call Graph for " ++ b.titleNames targets opts.current)
    let g := { g with nodeDefaults := .ofList [("shape", "box"), ("width", "0"), ("height", "0")] }
    let g := withDirection g opts.dir "LR"
    let (table, g, c) := b.addNodes (b.callSet routines opts) opts.current g c
    (addEdges table (b.callPairs routines) .empty g, c, [])

end Builder
end Diagram
end ApiDiagrams
