import ApiDiagrams.Diagram.CallGraph
import ApiDiagrams.Diagram.ClassTree
import ApiDiagrams.Diagram.ImportGraph
import ApiDiagrams.Diagram.PackageTree
import ApiDiagrams.Validation

/-!
# Building a diagram of a given kind
-/

namespace ApiDiagrams
namespace Diagram

/-- A diagram, the context after it, and what there is to say about it. -/
structure Built where
  graph : Dot.Graph
  context : Dot.Context
  log : List Log.Record := []
  deriving Repr, Inhabited, DecidableEq

namespace Builder

/-- Builds a diagram of a kind whose options have been checked. -/
def buildKind (b : Builder) (kind : Kind) (targets : List EntityId) (opts : Options)
    (c : Dot.Context) : Built :=
  match kind with
  | .packageTree => let (g, c, log) := b.packageTree targets opts c; ⟨g, c, log⟩
  | .classTree => let (g, c) := b.classTree targets opts c; ⟨g, c, []⟩
  | .importGraph => let (g, c) := b.importGraph targets opts c; ⟨g, c, []⟩
  | .callGraph => let (g, c, log) := b.callGraph targets opts c; ⟨g, c, log⟩

/-- Builds the diagram of exactly the named kind. -/
def build (b : Builder) (kind : String) (targets : List EntityId) (opts : Options)
    (c : Dot.Context) : Except Fault Built := do
  Validation.checkDirection opts.dir
  match Kind.ofText? kind with
  | some k => return b.buildKind k targets opts c
  | none => .error (.coded .invalidGraphKind ("unknown graph kind " ++ Text.quote kind))

end Builder
end Diagram
end ApiDiagrams
