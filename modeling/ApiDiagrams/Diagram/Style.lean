import ApiDiagrams.Data.Word
import ApiDiagrams.Dot.Graph

/-!
# How nodes look

* `Shape`: what a node stands for, as far as its looks go;
* `moduleIcon`: a module as a tab above a labelled box;
* `NodeStyle.of`: the style of a node.
-/

namespace ApiDiagrams
namespace Diagram

/-- The fill colour of module icons. -/
def moduleColor : String := "#d8e8ff"

/-- The fill colour of the entity that the page documents. -/
def selectedColor : String := "#ffd0d0"

/-- The address of a node whose entity has no page. -/
def noopUrl : String := "javascript:;"

/-- A module icon: a small tab above a labelled body. -/
def moduleIcon (color href tooltip label : String) : String :=
  "<TABLE BORDER=\"0\" CELLBORDER=\"0\" CELLSPACING=\"0\" CELLPADDING=\"0\" " ++
  "PORT=\"table\" ALIGN=\"LEFT\">" ++
  "<TR><TD ALIGN=\"LEFT\" VALIGN=\"BOTTOM\" HEIGHT=\"8\" WIDTH=\"16\" FIXEDSIZE=\"true\" " ++
  "BGCOLOR=\"" ++
  color ++ "\" BORDER=\"1\" PORT=\"tab\"></TD></TR>" ++
  "<TR><TD ALIGN=\"LEFT\" VALIGN=\"TOP\" BGCOLOR=\"" ++ color ++
  "\" BORDER=\"1\" PORT=\"body\" HREF=\"" ++ href ++ "\" TOOLTIP=\"" ++ tooltip ++ "\">" ++ label ++
  "</TD></TR>" ++
  "</TABLE>"

/-- What a node stands for, as far as its looks go. -/
inductive Shape
  | other
  | module
  | routine
  deriving DecidableEq, Repr, Inhabited

/-- What the looks of a node depend on. -/
structure StyleInput where
  shape : Shape := .other
  /-- The name relative to the entity that the page documents. -/
  label : String := ""
  /-- The full dotted name. -/
  fullName : String := ""
  /-- The page of the entity, empty when it has none. -/
  url : String := ""
  /-- The page documents this entity. -/
  current : Bool := false
  /-- The layout tool knows HTML-like labels. -/
  htmlLabels : Bool := false
  deriving DecidableEq, Repr, Inhabited

/-- All that is needed to make a styled node. -/
structure NodeStyle where
  label : String := ""
  richLabel : String := ""
  attrs : Dot.Attrs := .empty
  port : String := ""
  deriving DecidableEq, Repr, Inhabited

namespace NodeStyle

/-- The attributes that every plain box has. -/
def boxAttrs (href tooltip : String) : Dot.Attrs :=
  .ofList [("height", "0"), ("href", href), ("shape", "box"), ("tooltip", tooltip), ("width", "0")]

/-- A module as an icon. -/
def icon (input : StyleInput) (href : String) : NodeStyle :=
  let color := if input.current then selectedColor else moduleColor
  { richLabel := moduleIcon color href input.fullName input.label
    attrs := .ofList [("height", "0"), ("href", href), ("shape", "plaintext"),
      ("tooltip", input.label), ("width", "0")]
    port := "body" }

/-- A routine as a rounded box. -/
def rounded (input : StyleInput) (href : String) : NodeStyle :=
  let label := input.label ++ "()"
  let attrs := boxAttrs href label
  { label
    attrs :=
      if input.current then
        (attrs.insert "fillcolor" selectedColor).insert "style" "filled,rounded,bold"
      else attrs.insert "style" "rounded" }

/-- Anything else as a box. -/
def box (input : StyleInput) (href : String) : NodeStyle :=
  let attrs := boxAttrs href input.label
  { label := input.label
    attrs :=
      if input.current then
        (attrs.insert "fillcolor" selectedColor).insert "style" "filled,bold"
      else attrs }

/-- The style of a node. -/
def of (input : StyleInput) : NodeStyle :=
  let href := if input.url = "" then noopUrl else input.url
  match input.shape with
  | .module => if input.htmlLabels then icon input href else box input href
  | .routine => rounded input href
  | .other => box input href

end NodeStyle

/-- The amount by which each level of nesting darkens each channel of a colour. -/
def colorStep : Int := 10

/-- One channel of a colour in hexadecimal, darkened by `shade` but not below zero. It is computed
in a 64-bit word. -/
def channel (value shade : Int) : List Char :=
  Text.hexDigits 2 (max 0 (Word.wrap (value - shade))).toNat

/-- The colour of a package icon `depth` levels high: that of modules, darkened once for each level
above the leaves. -/
def packageColor (selected : Bool) (depth : Int) : String :=
  if selected then selectedColor
  else
    let shade := Word.wrap ((depth - 1) * colorStep)
    String.ofList ('#' :: (channel 0xd8 shade ++ channel 0xe8 shade ++ channel 0xff shade))

end Diagram
end ApiDiagrams
