import ApiDiagrams.Dot.Rendering
import ApiDiagrams.Run.Directive

/-!
# Outputs of a run

* `Output`: one generated diagram;
* `writeGraph`: its source, its image and its page fragment as files;
* `indexPage`, `writeIndex`: the page that lists all diagrams.
-/

namespace ApiDiagrams
namespace Run

/-- One generated diagram. The files lie in the output directory. -/
structure Output where
  directive : Directive
  uid : String
  title : String
  nodes : Nat
  edges : Nat
  source : String
  image : String
  fragment : String
  /-- The image could be had. -/
  rendered : Bool := false
  deriving DecidableEq, Repr, Inhabited

/-- What a run may choose. -/
structure Options where
  /-- Where files go, empty for the working directory. -/
  outDir : String := ""
  /-- The image format, empty for the default. -/
  format : String := ""
  center : Bool := false
  noIndex : Bool := false
  deriving DecidableEq, Repr, Inhabited

/-- The image format when none is chosen. -/
def defaultFormat : String := "png"

/-- The options with defaults filled in. -/
def Options.complete (o : Options) : Options :=
  { o with
    format := if o.format = "" then defaultFormat else o.format
    outDir := if o.outDir = "" then "." else o.outDir }

/-- Writes a file of the output directory. -/
def writeFile (dir name : String) (content : ByteArray) : Effect (Except Fault Unit) := do
  let path := Path.join [dir, name]
  match ← Effect.onFiles (·.write path content) with
  | .ok () => return .ok ()
  | .error e => return .error (.wrapped .invalidPath ("write " ++ path) (e.fault "open" path))

/-- What is known of a diagram before it is rendered. -/
def outputOf (d : Directive) (g : Dot.Graph) (format : String) : Output where
  directive := d
  uid := g.uid
  title := g.title
  nodes := g.nodes.length
  edges := g.edges.length
  source := g.uid ++ ".dot"
  image := g.uid ++ "." ++ format
  fragment := g.uid ++ ".html"

/-- Writes the source, the image and the page fragment of a diagram. Only files that cannot be
written are a failure. -/
def writeGraph (r : Render.Renderer) (opts : Options) (d : Directive) (g : Dot.Graph) :
    Effect (Except Fault Output) := do
  let out := outputOf d g opts.format
  match ← writeFile opts.outDir out.source g.source with
  | .error f => return .error f
  | .ok () =>
    let rendered ← g.renderToFile r (Path.join [opts.outDir, out.image]) opts.format
    let fragment ← g.toHtml r out.image opts.center
    match ← writeFile opts.outDir out.fragment (fragment ++ "\n".toUTF8) with
    | .error f => return .error f
    | .ok () => return .ok { out with rendered }

/-! ### The index page -/

/-- The page that lists all diagrams. -/
def indexFile : String := "index.html"

/-- A character of a page's text. -/
def pageChar (c : Char) : List Char :=
  if c.toNat = 0 then ['\uFFFD'] else if c = '+' then "&#43;".toList else Text.escapeHtmlChar c

/-- A text as it stands in a page. -/
def pageText (s : String) : String := String.ofList (s.toList.flatMap pageChar)

/-- The line of a diagram in the list. -/
def listItem (o : Output) : String :=
  "\n<li><a href=\"" ++ o.fragment ++ "\">" ++ pageText o.title ++ "</a> (" ++ toString o.nodes ++
    " nodes, " ++ toString o.edges ++ " edges)" ++
    (if o.rendered then "" else " <em>image unavailable</em>") ++ "</li>"

/-- The heading of a diagram. -/
def heading (o : Output) : String :=
  "\n<h2 id=\"" ++ o.uid ++ "\">" ++ pageText o.title ++ "</h2>\n"

/-- What stands before the diagrams. -/
def pageHead (outputs : List Output) : String :=
  "<!DOCTYPE html>\n<html>\n<head>\n<meta charset=\"utf-8\">\n<title>Graphs</title>\n</head>\n" ++
    "<body>\n<h1>Graphs</h1>" ++
    (if outputs.isEmpty then "\n<p>No graphs were generated.</p>" else "") ++ "\n<ul>" ++
    String.join (outputs.map listItem) ++ "\n</ul>"

/-- The page that lists diagrams and shows their fragments. -/
def indexPage (entries : List (Output × ByteArray)) : ByteArray :=
  let head := (pageHead (entries.map (·.1))).toUTF8
  let body := entries.foldl (fun page (o, fragment) => page ++ (heading o).toUTF8 ++ fragment) head
  body ++ "\n</body>\n</html>\n".toUTF8

/-- Writes the page that lists all diagrams. A fragment that cannot be read is left out. -/
def writeIndex (dir : String) (outputs : List Output) : Effect (Except Fault Unit) := do
  let files := (← get).files
  let entries := outputs.map fun o =>
    (o, (files.read (Path.join [dir, o.fragment])).toOption.getD .empty)
  writeFile dir indexFile (indexPage entries)

end Run
end ApiDiagrams
