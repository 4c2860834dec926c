import ApiDiagrams.Dot.Rendering
import ApiDiagrams.Proofs.Dot.Naming
import ApiDiagrams.Proofs.Text.Page

/-!
# Fragments of pages

The fragment of a page that shows a graph is read as tags around the image map, with the address of
the image, the title and the caption as values and characters, and with the same tags whatever these
texts say. The name of the graph is the only text that is put there as it is.

* `htmlTitle_inj`: different titles are escaped differently;
* `headTokens`, `tailTokens`: what a fragment shows around its image map;
* `read_fragmentHead`, `read_fragmentTail`: that it is read so;
* `escaped_without_loss`: titles and captions are kept by escaping, and fragments show them.
-/

namespace ApiDiagrams
namespace Dot
namespace Graph

open Page (Token chars start stop)
open Page.Reader (Reads)

/-! ### Titles and captions -/

theorem toList_htmlTitle (g : Graph) : g.htmlTitle.toList = Text.htmlAscii g.title :=
  String.toList_ofList

theorem toList_htmlCaption (g : Graph) : g.htmlCaption.toList = Text.htmlAscii g.caption :=
  String.toList_ofList

theorem ofList_htmlAscii_eq_empty_iff (s : String) :
    String.ofList (Text.htmlAscii s) = "" ↔ s = "" := by
  rw [← String.toList_inj, String.toList_ofList]
  exact Text.htmlAscii_injective.eq_iff (b := "")

theorem htmlTitle_eq_empty_iff (g : Graph) : g.htmlTitle = "" ↔ g.title = "" :=
  ofList_htmlAscii_eq_empty_iff g.title

theorem htmlCaption_eq_empty_iff (g : Graph) : g.htmlCaption = "" ↔ g.caption = "" :=
  ofList_htmlAscii_eq_empty_iff g.caption

theorem htmlTitle_inj {g g' : Graph} : g.htmlTitle = g'.htmlTitle ↔ g.title = g'.title := by
  unfold htmlTitle
  rw [String.ofList_inj, Text.htmlAscii_injective.eq_iff]

/-! ### Fragments -/

/-- Whether a title or a caption stands below the image. -/
def isTitled (g : Graph) : Bool := g.title ≠ "" || g.caption ≠ ""

/-- Whether title and caption together are too long to be centered. -/
def isWide (g : Graph) : Bool := g.htmlTitle.length + g.htmlCaption.length > wideTitle

/-- What a fragment shows before its image map. -/
def headTokens (g : Graph) (center : Bool) : List Token :=
  (if center then start "center" [] else []) ++
  (if g.isTitled then
    start "p" [] ++ start "table" ([("border", "0"), ("cellpadding", "0"), ("cellspacing", "0"),
      ("class", "graph")] ++ if g.isWide then [("width", "600")] else []) ++ chars "\n  " ++
    start "tr" [] ++ start "td" [("align", "center")] ++ chars "\n"
  else []) ++
  chars "  "

/-- The class of the image. -/
def imageClass (g : Graph) : String :=
  if g.isTitled then "graph-with-title" else "graph-without-title"

/-- The attributes of the image at an address, among them the title for those who cannot see it. -/
def imageAttrs (g : Graph) (imageUrl : String) : List (String × String) :=
  [("src", imageUrl), ("alt", g.title), ("usemap", "#" ++ g.uid), ("ismap", "ismap"),
    ("class", g.imageClass)]

/-- A text below the image, if there is any. -/
def spanTokens (kind text : String) : List Token :=
  if text ≠ "" then start "span" [("class", kind)] ++ chars text ++ stop "span" else []

/-- What a fragment shows after its image map. -/
def tailTokens (g : Graph) (imageUrl : String) (center : Bool) : List Token :=
  chars "\n  " ++ start "img" (g.imageAttrs imageUrl) ++ chars "\n" ++
  (if g.isTitled then
    chars "  " ++ stop "td" ++ stop "tr" ++ chars "\n  " ++ start "tr" [] ++
    start "td" [("align", if g.isWide then "left" else "center")] ++ chars "\n" ++
    spanTokens "graph-title" g.title ++
    (if g.title ≠ "" ∧ g.caption ≠ "" then chars " -- " else []) ++
    spanTokens "graph-caption" g.caption ++
    (chars "\n  " ++ stop "td" ++ stop "tr" ++ chars "\n" ++ stop "table" ++ stop "p")
  else []) ++
  (if center then stop "center" else [])

theorem isTitled_eq (g : Graph) : (g.htmlTitle ≠ "" || g.htmlCaption ≠ "") = g.isTitled := by
  simp only [isTitled, ne_eq, htmlTitle_eq_empty_iff, htmlCaption_eq_empty_iff]

theorem read_fragmentHead (g : Graph) (center : Bool) :
    Page.read (g.fragmentHead center) = some (g.headTokens center) := by
  unfold fragmentHead headTokens
  simp only [isTitled_eq]
  refine Page.read_append (Page.read_append (Page.read_ite fun _ => ?center)
    (Page.read_ite fun _ => ?table)) ?blank
  case center => decide
  case blank => decide
  case table =>
    simp only [isWide, decide_eq_true_eq]
    split_ifs <;> rfl

/-- A text below the image is read between the tags of its own. -/
theorem read_span {tag kind text s : String}
    (htag : Page.read tag = some (start "span" [("class", kind)]))
    (h : Page.ShownAs s.toList text.toList) :
    Page.read (if text ≠ "" then tag ++ s ++ "</span>" else "") = some (spanTokens kind text) := by
  have htext : Page.read s = some (chars text) := Page.read_eq_some_iff.2 (h.content [])
  exact Page.read_ite fun _ => Page.read_append (Page.read_append htag htext) (by decide)

/-- The attributes of the image as they are written. -/
def imageAttrTexts (g : Graph) (imageUrl : String) : List Page.Attr :=
  [⟨"src", Text.escapeHtml imageUrl.toList, imageUrl⟩, ⟨"alt", Text.htmlAscii g.title, g.title⟩,
    ⟨"usemap", ("#" ++ g.uid).toList, "#" ++ g.uid⟩, ⟨"ismap", "ismap".toList, "ismap"⟩,
    ⟨"class", g.imageClass.toList, g.imageClass⟩]

theorem shows_imageAttrTexts (g : Graph) (huid : ∀ c ∈ g.uid.toList, c ≠ '"' ∧ c ≠ '&')
    (imageUrl : String) : ∀ a ∈ g.imageAttrTexts imageUrl, a.Shows := by
  have hmap : ∀ c ∈ ("#" ++ g.uid).toList, c ≠ '"' ∧ c ≠ '&' := by
    rw [String.toList_append]
    exact List.forall_mem_append.2 ⟨List.all_iff_forall_prop.1 (by decide), huid⟩
  have hclass : ∀ c ∈ g.imageClass.toList, c ≠ '"' ∧ c ≠ '&' := by
    unfold imageClass
    cases g.isTitled <;> exact List.all_iff_forall_prop.1 (by decide)
  simp only [imageAttrTexts, List.forall_mem_cons]
  exact ⟨Page.shows_of_shownAs (by decide) (Page.shownAs_escapeHtml imageUrl.toList),
    Page.shows_of_shownAs (by decide) (Page.shownAs_htmlAscii g.title),
    Page.shows_of_plain (by decide) hmap,
    Page.shows_of_plain (by decide) (List.all_iff_forall_prop.1 (by decide)),
    Page.shows_of_plain (by decide) hclass, nofun⟩

/-- The image is read with the address and the title as values. -/
theorem read_image (g : Graph) (huid : ∀ c ∈ g.uid.toList, c ≠ '"' ∧ c ≠ '&') (imageUrl : String) :
    Page.read ("\n  <img src=\"" ++ String.ofList (Text.escapeHtml imageUrl.toList) ++ "\" alt=\"" ++
      g.htmlTitle ++ "\" usemap=\"#" ++ g.uid ++ "\" ismap=\"ismap\" class=\"" ++ g.imageClass ++
      "\">\n") = some (chars "\n  " ++ start "img" (g.imageAttrs imageUrl) ++ chars "\n") := by
  have hblank : Reads {} "\n  ".toList ⟨.content, chars "\n  "⟩ := by decide
  have htag : Reads ⟨.content, chars "\n  "⟩
      (Page.tagText "img" (g.imageAttrTexts imageUrl) "\n".toList)
      ⟨.content, chars "\n  " ++ start "img" (g.imageAttrs imageUrl) ++ chars "\n"⟩ :=
    Page.reads_tagText (by decide) (g.shows_imageAttrTexts huid imageUrl) rfl
  rw [Page.read_eq_some_iff]
  convert hblank.append htag using 1
  simp [String.toList_append, toList_htmlTitle, Page.tagText, Page.attrsText, imageAttrTexts]

theorem read_fragmentTail (g : Graph) (huid : ∀ c ∈ g.uid.toList, c ≠ '"' ∧ c ≠ '&')
    (imageUrl : String) (center : Bool) :
    Page.read (g.fragmentTail imageUrl center) = some (g.tailTokens imageUrl center) := by
  unfold fragmentTail tailTokens
  simp only [isTitled_eq]
  refine Page.read_append (Page.read_append (g.read_image huid imageUrl)
    (Page.read_ite fun _ => ?table)) (Page.read_ite fun _ => ?center)
  case center => decide
  case table =>
    simp only [Bool.and_eq_true, decide_eq_true_eq, htmlTitle_eq_empty_iff,
      htmlCaption_eq_empty_iff, ne_eq]
    refine Page.read_append (Page.read_append (Page.read_append (Page.read_append ?cell
      (read_span (by decide) ?title)) (Page.read_ite fun _ => ?between))
      (read_span (by decide) ?caption)) ?closing
    case cell =>
      simp only [isWide, decide_eq_true_eq]
      split_ifs <;> decide
    case title =>
      rw [toList_htmlTitle]
      exact Page.shownAs_htmlAscii g.title
    case between => decide
    case caption =>
      rw [toList_htmlCaption]
      exact Page.shownAs_htmlAscii g.caption
    case closing => decide

/-- Names of graphs need no escaping. -/
theorem plain_of_isUid {u : List Char} (h : IsUid u) : ∀ c ∈ u, c ≠ '"' ∧ c ≠ '&' := by
  intro c hc
  constructor <;> rintro rfl <;> exact absurd (h.chars _ hc) (by decide)

/-! ### Main result -/

/-- Titles and captions are escaped to harmless texts that read as themselves, and a fragment is read
as its tags around them: the title, the caption and the address of the image are characters of
their elements and values of their attributes, whatever they are. -/
theorem escaped_without_loss (g : Graph) :
    (Text.Harmless g.htmlTitle.toList ∧
      Text.unescapeHtml g.htmlTitle.toList = some g.title.toList) ∧
    (Text.Harmless g.htmlCaption.toList ∧
      Text.unescapeHtml g.htmlCaption.toList = some g.caption.toList) ∧
    (∀ g' : Graph, g'.title ≠ g.title → g'.htmlTitle ≠ g.htmlTitle) ∧
    Page.ShownAs g.htmlTitle.toList g.title.toList ∧
    Page.ShownAs g.htmlCaption.toList g.caption.toList ∧
    (∀ url : String, Page.ShownAs (Text.escapeHtml url.toList) url.toList) ∧
    ∀ r imageUrl center w, ∃ imageMap,
      ((g.toHtml r imageUrl center).run w).1 = (g.fragmentHead center).toUTF8 ++
        Text.trimBytes imageMap ++ (g.fragmentTail imageUrl center).toUTF8 ∧
      ((∀ c ∈ g.uid.toList, c ≠ '"' ∧ c ≠ '&') →
        Page.read (g.fragmentHead center) = some (g.headTokens center) ∧
        Page.read (g.fragmentTail imageUrl center) = some (g.tailTokens imageUrl center) ∧
        ∀ map ts, Page.read map = some ts →
          Page.read (g.fragmentHead center ++ map ++ g.fragmentTail imageUrl center) =
            some (g.headTokens center ++ ts ++ g.tailTokens imageUrl center)) := by
  rw [toList_htmlTitle, toList_htmlCaption]
  refine ⟨⟨Text.harmless_htmlAscii _, Text.unescapeHtml_htmlAscii _⟩,
    ⟨Text.harmless_htmlAscii _, Text.unescapeHtml_htmlAscii _⟩,
    fun g' hne heq => hne (htmlTitle_inj.1 heq), Page.shownAs_htmlAscii _,
    Page.shownAs_htmlAscii _, fun url => Page.shownAs_escapeHtml _, ?_⟩
  intro r imageUrl center w
  refine ⟨((g.render r "cmapx").run w).1.getD .empty, rfl, fun huid => ?_⟩
  have hhead := g.read_fragmentHead center
  have htail := g.read_fragmentTail huid imageUrl center
  exact ⟨hhead, htail, fun map ts hmap => Page.read_append (Page.read_append hhead hmap) htail⟩

/-- A graph whose texts are full of marks and of what looks like references and tags. -/
def marked : Graph :=
  { title := "Ü<b>&#34;\"'", uid := "u_b__34___", caption := "</span>" }

/-- The marks are characters of the page, and the tags are those of the fragment. -/
theorem escaped_without_loss_of_marks :
    (marked.htmlTitle = "&#220;&lt;b&gt;&amp;#34;&#34;&#39;" ∧
      Text.unescapeHtml marked.htmlTitle.toList = some marked.title.toList) ∧
    (∀ c ∈ marked.uid.toList, c ≠ '"' ∧ c ≠ '&') ∧
    Page.read (marked.fragmentTail "a.png?\"&amp;" false) = some
      (chars "\n  " ++ start "img" [("src", "a.png?\"&amp;"), ("alt", "Ü<b>&#34;\"'"),
        ("usemap", "#u_b__34___"), ("ismap", "ismap"), ("class", "graph-with-title")] ++ chars "\n" ++
        (chars "  " ++ stop "td" ++ stop "tr" ++ chars "\n  " ++ start "tr" [] ++
          start "td" [("align", "center")] ++ chars "\n" ++
          (start "span" [("class", "graph-title")] ++ chars "Ü<b>&#34;\"'" ++ stop "span") ++
          chars " -- " ++
          (start "span" [("class", "graph-caption")] ++ chars "</span>" ++ stop "span") ++
          (chars "\n  " ++ stop "td" ++ stop "tr" ++ chars "\n" ++ stop "table" ++ stop "p")) ++
        []) := by
  have huid : IsUid marked.uid.toList := by
    refine ⟨by decide, List.all_iff_forall_prop.1 (by decide), fun c hc => ?_⟩
    obtain rfl : 'u' = c := Option.some.inj hc
    rfl
  obtain ⟨⟨-, htitle⟩, -, -, -, -, -, hfragment⟩ := escaped_without_loss marked
  obtain ⟨-, -, hread⟩ := hfragment default "a.png?\"&amp;" false {}
  exact ⟨⟨by decide, htitle⟩, plain_of_isUid huid, (hread (plain_of_isUid huid)).2.1⟩

end Graph
end Dot
end ApiDiagrams
