import ApiDiagrams.Dot.Html
import ApiDiagrams.Render.Renderer

/-!
# Rendering a graph

At this boundary a renderer's failure becomes a record in the log and the absence of a result.

* `Graph.render`: the graph in an output format, if it can be had;
* `Graph.renderToFile`: the same into a file;
* `Graph.toHtml`: the fragment of a page that shows the graph.
-/

namespace ApiDiagrams
namespace Dot
namespace Graph

/-- The source of the graph, as the renderer gets it. -/
def source (g : Graph) : ByteArray := g.text.toUTF8

/-- The record about a failed rendering: a warning when the layout tool is at fault. -/
def renderFailure (g : Graph) (format : String) (f : Fault) : Log.Record :=
  ⟨if f.isRenderFailure then .warn else .error, "Unable to render Graphviz dot graph",
    [("graph", .text g.uid), ("format", .text format), ("err", .text f.text)]⟩

/-- Lays out the graph in an output format. A failure is logged. -/
def render (g : Graph) (r : Render.Renderer) (format : String) : Effect (Option ByteArray) := do
  match ← r.render g.source format with
  | .ok output => return some output
  | .error f =>
    Effect.log (g.renderFailure format f)
    return none

/-- The record about a file that could not be written. -/
def writeFailure (path : String) (f : Fault) : Log.Record :=
  ⟨.warn, "Unable to write graph", [("path", .text path), ("err", .text f.text)]⟩

/-- Lays out the graph into a file, making its directory as needed. Says whether the file was
written. -/
def renderToFile (g : Graph) (r : Render.Renderer) (path format : String) : Effect Bool := do
  match ← g.render r format with
  | none => return false
  | some output =>
    match ← Effect.makeDirs (Path.dir path) with
    | .error f =>
      Effect.log (writeFailure path f)
      return false
    | .ok () =>
      match ← Effect.onFiles (·.write path output) with
      | .error e =>
        Effect.log (writeFailure path (e.fault "open" path))
        return false
      | .ok () => return true

/-- The fragment of a page that shows the image at an address, with its image map if that can be
rendered. -/
def toHtml (g : Graph) (r : Render.Renderer) (imageUrl : String) (center : Bool) :
    Effect ByteArray := do
  let imageMap := (← g.render r "cmapx").getD .empty
  return g.fragment imageMap imageUrl center

end Graph
end Dot
end ApiDiagrams
