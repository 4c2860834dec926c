import ApiDiagrams.Dot.Graph
import ApiDiagrams.Text.Html
import ApiDiagrams.Text.Utf8

/-!
# Graphs in HTML pages

* `Graph.htmlTitle`: the title in a page of ASCII;
* `Graph.fragment`: the image of a graph with its image map, title and caption.
-/

namespace ApiDiagrams
namespace Dot

/-- The length of title and caption together above which they are set to the left, at a fixed
width. -/
def wideTitle : Nat := 80

namespace Graph

/-- The title as it stands in a page of ASCII. -/
def htmlTitle (g : Graph) : String := String.ofList (Text.htmlAscii g.title)

/-- The caption as it stands in a page of ASCII. -/
def htmlCaption (g : Graph) : String := String.ofList (Text.htmlAscii g.caption)

/-- What stands before the image map. -/
def fragmentHead (g : Graph) (center : Bool) : String :=
  let title := g.htmlTitle
  let caption := g.htmlCaption
  let width := if title.length + caption.length > wideTitle then " width=\"600\"" else ""
  (if center then "<center>" else "") ++
  (if title ≠ "" || caption ≠ "" then
    "<p><table border=\"0\" cellpadding=\"0\" cellspacing=\"0\" class=\"graph\"" ++ width ++
      ">\n  <tr><td align=\"center\">\n"
  else "") ++
  "  "

/-- What stands after the image map. -/
def fragmentTail (g : Graph) (imageUrl : String) (center : Bool) : String :=
  let title := g.htmlTitle
  let caption := g.htmlCaption
  let titled := title ≠ "" || caption ≠ ""
  let align := if title.length + caption.length > wideTitle then "left" else "center"
  let kind := if titled then "graph-with-title" else "graph-without-title"
  "\n  <img src=\"" ++ String.ofList (Text.escapeHtml imageUrl.toList) ++ "\" alt=\"" ++ title ++
  "\" usemap=\"#" ++ g.uid ++ "\" ismap=\"ismap\" class=\"" ++ kind ++ "\">\n" ++
  (if titled then
    "  </td></tr>\n  <tr><td align=\"" ++ align ++ "\">\n" ++
    (if title ≠ "" then "<span class=\"graph-title\">" ++ title ++ "</span>" else "") ++
    (if title ≠ "" && caption ≠ "" then " -- " else "") ++
    (if caption ≠ "" then "<span class=\"graph-caption\">" ++ caption ++ "</span>" else "") ++
    "\n  </td></tr>\n</table></p>"
  else "") ++
  (if center then "</center>" else "")

/-- The image at an address, with the image map that was rendered for it. -/
def fragment (g : Graph) (imageMap : ByteArray) (imageUrl : String) (center : Bool) : ByteArray :=
  (g.fragmentHead center).toUTF8 ++ Text.trimBytes imageMap ++
    (g.fragmentTail imageUrl center).toUTF8

end Graph
end Dot
end ApiDiagrams
