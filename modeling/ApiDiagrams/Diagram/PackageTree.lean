import ApiDiagrams.Diagram.Builder

/-!
# Package trees

Packages and all their submodules, drawn in one of two styles: nested icons, where a package is a
box that holds the icons of its submodules, or a tree of icons joined by lines.

* `Box`: a package with its submodules, as it is nested;
* `Box.rows`, `Box.depth`, `Box.width`, `Box.label`: its layout;
* `nestedTree`, `plainTree`: the two styles;
* `packageTree`: the choice between them.
-/

namespace ApiDiagrams
namespace Diagram

/-- The greatest width of a row of icons, roughly in characters. -/
def maxRowWidth : Nat := 80

/-- A package with the boxes of its submodules; a module is a box that holds none. -/
inductive Box
  | node (entity : EntityId) (inner : List Box)
  deriving Repr, Inhabited

namespace Box

/-- The boxes below an entity, nested at most `fuel` deep. -/
def of (ix : Index) : (fuel : Nat) → EntityId → Box
  | 0, i => .node i []
  | fuel + 1, i =>
    let e := ix.entity i
    if e.isPackage then .node i (e.submodules.map (of ix fuel)) else .node i []

/-- The number of levels. -/
def depth : Box → Nat
  | .node _ inner => (inner.map depth).foldl max 0 + 1

end Box

/-- A box as it is drawn: its label, the number of its levels and its width in characters. -/
structure Drawn where
  label : String
  depth : Nat
  width : Nat
  deriving Repr, Inhabited, DecidableEq

/-- The boxes of a package cut into rows: a row goes on as long as the next box fits, and every
row holds one box at least. The accumulator is the current row, last box first, and its width. -/
def layRows : (row : List Drawn) → (width : Nat) → List Drawn → List (List Drawn)
  | row, _, [] => [row.reverse]
  | row, width, d :: rest =>
    if width > 0 && width + d.width > maxRowWidth then row.reverse :: layRows [d] d.width rest
    else layRows (d :: row) (width + d.width) rest

/-- The width of a row. -/
def rowWidth (row : List Drawn) : Nat := row.foldl (fun n d => n + d.width) 0

/-- How a row of boxes opens. -/
def rowOpen : String := "<TR><TD><TABLE BORDER=\"0\" CELLBORDER=\"0\"><TR>"

/-- How a row of boxes closes. -/
def rowClose : String := "</TR></TABLE></TD></TR>"

/-- The cell of a box in its row. -/
def boxCell (d : Drawn) : String := "<TD ALIGN=\"LEFT\">" ++ d.label ++ "</TD>"

/-- A row of boxes. -/
def rowText (row : List Drawn) : String := rowOpen ++ String.join (row.map boxCell) ++ rowClose

/-- The inside of a package: its short name above the rows of its boxes. -/
def packageBody (last : String) (rows : List (List Drawn)) : String :=
  "<TABLE BORDER=\"0\" CELLBORDER=\"0\"><TR><TD ALIGN=\"LEFT\">" ++ last ++ "</TD></TR>" ++
    String.join (rows.map rowText) ++ "</TABLE>"

/-- A package icon: a small tab above a box with a body. -/
def packageIcon (color href tooltip body : String) : String :=
  "<TABLE BORDER=\"0\" CELLBORDER=\"0\" CELLSPACING=\"0\"><TR>" ++
  "<TD ALIGN=\"LEFT\" HEIGHT=\"8\" WIDTH=\"16\" FIXEDSIZE=\"true\" BORDER=\"1\" " ++
  "VALIGN=\"BOTTOM\" BGCOLOR=\"" ++
  color ++ "\"></TD></TR><TR>" ++
  "<TD COLSPAN=\"5\" VALIGN=\"TOP\" ALIGN=\"LEFT\" BORDER=\"1\" BGCOLOR=\"" ++ color ++
  "\" HREF=\"" ++ href ++ "\" TOOLTIP=\"" ++ tooltip ++ "\">" ++ body ++ "</TD></TR></TABLE>"

namespace Box

/-- Draws a box, when the page documents `current`. -/
def draw (b : Builder) (current : Option EntityId) : Box → Drawn
  | .node i inner =>
    let name := b.index.nameOf i
    let href := b.hrefFor i
    let lastWidth := name.last.utf8ByteSize + 3
    let selected := current == some i
    match inner.map (draw b current) with
    | [] =>
      { label := moduleIcon (packageColor selected 1) href name.text name.last
        depth := 1
        width := lastWidth }
    | d :: ds =>
      let rows := layRows [] 0 (d :: ds)
      let depth := ((d :: ds).map (·.depth)).foldl max 0 + 1
      { label := packageIcon (packageColor selected depth) href name.text
          (packageBody name.last rows)
        depth
        width := (rows.map rowWidth).foldl max lastWidth }

end Box

namespace Builder

/-- The nested icon of a package, when the page documents `current`. -/
def packageLabel (b : Builder) (package : EntityId) (current : Option EntityId) : Drawn :=
  (Box.of b.index (b.index.entities.size + 1) package).draw b current

/-- The package lies in another one of the list, judged by their names. -/
def isDominated (b : Builder) (packages : List EntityId) (p : EntityId) : Bool :=
  packages.any fun q => q ≠ p && (b.index.nameOf q).dominates (b.index.nameOf p)

/-- The style of the composite node of a package. -/
def packageStyle (b : Builder) (current : Option EntityId) (p : EntityId) : NodeStyle where
  richLabel := (b.packageLabel p current).label
  attrs := .ofList [("shape", "plaintext"), ("href", b.hrefFor p),
    ("tooltip", (b.index.nameOf p).text)]

/-- One composite node for each package that lies in no other one of the list. -/
def nestedTree (b : Builder) (title : String) (packages : List EntityId)
    (current : Option EntityId) (c : Dot.Context) : Dot.Graph × Dot.Context :=
  let (g, c) := c.newGraph title
  let outer := packages.filter fun p => !b.isDominated packages p
  let (_, g, c) := addStyledNodes (b.packageStyle (current.map b.index.resolve)) outer g c
  (g, c)

/-- The packages and everything below them. -/
def packagesBelow (b : Builder) (packages : List EntityId) : List EntityId :=
  reachable b.index.entities.size (fun i => (b.index.entity i).submodules) packages

/-- The packages and their submodules as a tree of icons. -/
def plainTree (b : Builder) (title : String) (packages : List EntityId) (opts : Options)
    (c : Dot.Context) : Dot.Graph × Dot.Context :=
  let (g, c) := c.newGraph title
  let g := { g with body := "ranksep=.3\nnodesep=.1\n", edgeDefaults := .ofList [("dir", "none")] }
  let g := withDirection g opts.dir "TB"
  let modules := b.packagesBelow packages
  let (table, g, c) := b.addNodes modules opts.current g c
  let pairs := modules.flatMap fun m => (b.index.entity m).submodules.map fun s => (m, s)
  (addEdges table pairs (.ofList [("headport", "tab")]) g, c)

/-- A package tree. Nested icons need a layout tool that knows HTML-like labels; when they were
asked for and cannot be had, a warning says so. -/
def packageTree (b : Builder) (packages : List EntityId) (opts : Options) (c : Dot.Context) :
    Dot.Graph × Dot.Context × List Log.Record :=
  let title := "Package Tree for " ++ b.titleNames packages opts.current
  let nested := opts.style = "" || opts.style = umlStyle
  if nested && b.htmlLabels then
    let (g, c) := b.nestedTree title packages opts.current c
    (g, c, [])
  else
    let (g, c) := b.plainTree title packages opts c
    (g, c,
      if opts.style = umlStyle then
        [⟨.warn, "UML style package trees require dot version 2.0+",
          [("dot", .text b.version.text)]⟩]
      else [])

end Builder
end Diagram
end ApiDiagrams
