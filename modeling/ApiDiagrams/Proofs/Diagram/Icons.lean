import ApiDiagrams.Proofs.Diagram.Nesting
import ApiDiagrams.Proofs.Run.Names

/-!
# The icons in labels

A label of a package tree is markup, in which the icon of every module has the full name of the
module as its tooltip. Here labels are read: the values of all tooltips, in their order.

* `Place`, `scan`: reading markup character by character;
* `tooltips`, `iconNames`: the tooltips in a label and in the labels of a graph;
* `Shows`: a piece of markup has these tooltips, wherever it stands;
* `Box.shows_draw`: the label of a box shows its entities;
* `Builder.packageTrees_agree_iff`: what the two styles of package trees show.
-/

namespace ApiDiagrams
namespace Diagram

/-! ### Reading markup -/

/-- A place in markup: between tags or inside of one, with the characters of the word that stands
before, or inside of a quoted value, with the characters of it that stand before. -/
inductive Place
  | outside (word : List Char)
  | inside (wanted : Bool) (value : List Char)
  deriving DecidableEq, Repr

/-- Reads one character: a value that a quote ends, if it is that of a tooltip, and the place after
the character. -/
def Place.step : Place → Char → List String × Place
  | .outside word, c =>
    if c = '"' then ([], .inside (word = ['T', 'O', 'O', 'L', 'T', 'I', 'P', '=']) [])
    else if c = ' ' ∨ c = '<' then ([], .outside [])
    else ([], .outside (word ++ [c]))
  | .inside wanted value, c =>
    if c = '"' then (if wanted then [String.ofList value] else [], .outside [])
    else ([], .inside wanted (value ++ [c]))

/-- Reads a text: the values of its tooltips and the place after it. -/
def scan : Place → List Char → List String × Place
  | p, [] => ([], p)
  | p, c :: rest => ((p.step c).1 ++ (scan (p.step c).2 rest).1, (scan (p.step c).2 rest).2)

/-- The tooltips in a label. -/
def tooltips (label : String) : List String := (scan (.outside []) label.toList).1

/-- The names of the modules whose icons stand in the labels of a graph, in their order. -/
def iconNames (g : Dot.Graph) : List String := g.nodes.flatMap fun n => tooltips n.richLabel

/-- Reading a text from one place gives these tooltips and leads to the other place. -/
def Scans (p : Place) (text : String) (names : List String) (q : Place) : Prop :=
  scan p text.toList = (names, q)

instance (p : Place) (text : String) (names : List String) (q : Place) :
    Decidable (Scans p text names q) := inferInstanceAs (Decidable (_ = _))

/-- Literals are read as the lists of their characters. -/
theorem scans_ofList {p q : Place} {text : List Char} {names : List String}
    (h : scan p text = (names, q)) : Scans p (String.ofList text) names q := by
  unfold Scans
  rw [String.toList_ofList, h]

theorem Scans.congr {p q : Place} {text : String} {x y : List String} (h : Scans p text x q)
    (hxy : x = y) : Scans p text y q := hxy ▸ h

theorem scan_append (p : Place) (a b : List Char) :
    scan p (a ++ b) = ((scan p a).1 ++ (scan (scan p a).2 b).1, (scan (scan p a).2 b).2) := by
  induction a generalizing p with
  | nil => simp [scan]
  | cons c a ih => simp [scan, ih]

theorem Scans.append {p q r : Place} {a b : String} {x y : List String} (h : Scans p a x q)
    (h' : Scans q b y r) : Scans p (a ++ b) (x ++ y) r := by
  unfold Scans at *
  rw [String.toList_append, scan_append, h, h']

/-- A text without quotes ends no value and starts none. -/
theorem scans_value (wanted : Bool) (value : List Char) {text : String}
    (h : '"' ∉ text.toList) :
    Scans (.inside wanted value) text [] (.inside wanted (value ++ text.toList)) := by
  unfold Scans
  generalize text.toList = l at h ⊢
  induction l generalizing value with
  | nil => simp [scan]
  | cons c rest ih =>
    rw [List.mem_cons, not_or] at h
    simp [scan, Place.step, Ne.symm h.1, ih _ h.2]

theorem exists_scans_outside (word : List Char) {text : String} (h : '"' ∉ text.toList) :
    ∃ word', Scans (.outside word) text [] (.outside word') := by
  unfold Scans
  generalize text.toList = l at h ⊢
  induction l generalizing word with
  | nil => exact ⟨word, rfl⟩
  | cons c rest ih =>
    rw [List.mem_cons, not_or] at h
    by_cases hc : c = ' ' ∨ c = '<'
    · obtain ⟨word', hscan⟩ := ih [] h.2
      exact ⟨word', by simp [scan, Place.step, Ne.symm h.1, hc, hscan]⟩
    · obtain ⟨word', hscan⟩ := ih (word ++ [c]) h.2
      exact ⟨word', by simp [scan, Place.step, Ne.symm h.1, hc, hscan]⟩

/-- Where a tag starts, the word before does not matter. -/
theorem scans_tag {text : List Char} {names : List String} {p : Place} (word : List Char)
    (htag : text.head? = some '<') (h : scan (.outside []) text = (names, p)) :
    Scans (.outside word) (String.ofList text) names p := by
  obtain ⟨rest, rfl⟩ := List.head?_eq_some_iff.1 htag
  exact scans_ofList h

/-- Where a quote ends a value, the value does not matter unless it is that of a tooltip. -/
theorem scans_quote {text : List Char} {names : List String} {p : Place} (wanted : Bool)
    (value : List Char) (hquote : text.head? = some '"')
    (h : scan (.inside false []) text = (names, p)) :
    Scans (.inside wanted value) (String.ofList text)
      ((if wanted then [String.ofList value] else []) ++ names) p := by
  obtain ⟨rest, rfl⟩ := List.head?_eq_some_iff.1 hquote
  refine scans_ofList ?_
  simp only [scan, Place.step, if_true, Bool.false_eq_true, if_false, List.nil_append] at h ⊢
  obtain ⟨rfl, rfl⟩ := Prod.mk.inj h
  rfl

/-- Markup that has these tooltips, wherever it stands between tags. -/
def Shows (text : String) (names : List String) : Prop :=
  ∀ word, ∃ word', Scans (.outside word) text names (.outside word')

theorem Shows.congr {text : String} {x y : List String} (h : Shows text x) (hxy : x = y) :
    Shows text y := hxy ▸ h

theorem Shows.tooltips_eq {text : String} {names : List String} (h : Shows text names) :
    tooltips text = names := by
  obtain ⟨word', hscan⟩ := h []
  exact congrArg Prod.fst hscan

theorem Shows.append {a b : String} {x y : List String} (h : Shows a x) (h' : Shows b y) :
    Shows (a ++ b) (x ++ y) := by
  intro word
  obtain ⟨word', hscan⟩ := h word
  obtain ⟨word'', hscan'⟩ := h' word'
  exact ⟨word'', hscan.append hscan'⟩

theorem shows_plain {text : String} (h : '"' ∉ text.toList) : Shows text [] :=
  fun word => exists_scans_outside word h

theorem shows_join {α : Type} {f : α → String} {names : α → List String} {l : List α}
    (h : ∀ x ∈ l, Shows (f x) (names x)) : Shows (String.join (l.map f)) (l.flatMap names) := by
  induction l with
  | nil => exact shows_plain (by simp)
  | cons x l ih =>
    have hrest := ih fun y hy => h y (List.mem_cons_of_mem _ hy)
    have happend := (h x List.mem_cons_self).append hrest
    rw [List.map_cons, String.join_cons, List.flatMap_cons]
    exact happend

/-! ### Icons -/

theorem shows_literal {text : List Char} (h : '"' ∉ text) : Shows (String.ofList text) [] :=
  shows_plain (by rwa [String.toList_ofList])

theorem shows_tag {text : List Char} (htag : text.head? = some '<')
    (h : ∃ word, scan (.outside []) text = ([], .outside word)) :
    Shows (String.ofList text) [] := by
  intro word
  obtain ⟨word', hscan⟩ := h
  exact ⟨word', scans_tag word htag hscan⟩

/-- The end of a tooltip. -/
theorem scans_tooltip (tooltip : String) :
    Scans (.inside true ([] ++ tooltip.toList)) "\">" [tooltip] (.outside ['>']) := by
  have hscan : Scans (.inside true ([] ++ tooltip.toList)) "\">"
      ([String.ofList ([] ++ tooltip.toList)] ++ []) (.outside ['>']) :=
    scans_quote true _ (by decide) (by decide)
  exact hscan.congr (by simp)

/-- The icon of a module shows its tooltip. -/
theorem shows_moduleIcon {color href tooltip label : String} (hcolor : '"' ∉ color.toList)
    (hhref : '"' ∉ href.toList) (htooltip : '"' ∉ tooltip.toList) (hlabel : '"' ∉ label.toList) :
    Shows (moduleIcon color href tooltip label) [tooltip] := by
  intro word
  -- the literals of the icon, each with the place that it starts from
  have htable : Scans (.outside word)
      "<TABLE BORDER=\"0\" CELLBORDER=\"0\" CELLSPACING=\"0\" CELLPADDING=\"0\" " []
      (.outside []) := scans_tag word (by decide) (by decide)
  have hport : Scans (.outside []) "PORT=\"table\" ALIGN=\"LEFT\">" [] (.outside ['>']) :=
    scans_ofList (by decide)
  have htab : Scans (.outside ['>'])
      "<TR><TD ALIGN=\"LEFT\" VALIGN=\"BOTTOM\" HEIGHT=\"8\" WIDTH=\"16\" FIXEDSIZE=\"true\" " []
      (.outside []) := scans_ofList (by decide)
  have hfill : Scans (.outside []) "BGCOLOR=\"" [] (.inside false []) := scans_ofList (by decide)
  have hrow : Scans (.inside false ([] ++ color.toList))
      "\" BORDER=\"1\" PORT=\"tab\"></TD></TR>" []
      (.outside ['/', 'T', 'R', '>']) := scans_quote false _ (by decide) (by decide)
  have hcell : Scans (.outside ['/', 'T', 'R', '>'])
      "<TR><TD ALIGN=\"LEFT\" VALIGN=\"TOP\" BGCOLOR=\"" [] (.inside false []) :=
    scans_ofList (by decide)
  have hlink : Scans (.inside false ([] ++ color.toList))
      "\" BORDER=\"1\" PORT=\"body\" HREF=\"" [] (.inside false []) :=
    scans_quote false _ (by decide) (by decide)
  have htip : Scans (.inside false ([] ++ href.toList)) "\" TOOLTIP=\"" [] (.inside true []) :=
    scans_quote false _ (by decide) (by decide)
  have hopen := scans_tooltip tooltip
  obtain ⟨word', hword⟩ := exists_scans_outside ['>'] hlabel
  have hclose : Scans (.outside word') "</TD></TR>" [] (.outside ['/', 'T', 'R', '>']) :=
    scans_tag word' (by decide) (by decide)
  have hend : Scans (.outside ['/', 'T', 'R', '>']) "</TABLE>" []
      (.outside ['/', 'T', 'A', 'B', 'L', 'E', '>']) := scans_ofList (by decide)
  -- the upper cell, the lower cell and the label in it
  have hupper := (((htable.append hport).append htab).append hfill).append
    (scans_value false [] hcolor)
  have hlower := (((hupper.append hrow).append hcell).append (scans_value false [] hcolor)).append
    hlink
  have hname := (((hlower.append (scans_value false [] hhref)).append htip).append
    (scans_value true [] htooltip)).append hopen
  exact ⟨_, ((hname.append hword).append hclose).append hend⟩

/-- The icon of a package shows its tooltip and then what its body shows. -/
theorem shows_packageIcon {color href tooltip body : String} {names : List String}
    (hcolor : '"' ∉ color.toList) (hhref : '"' ∉ href.toList) (htooltip : '"' ∉ tooltip.toList)
    (hbody : Shows body names) :
    Shows (packageIcon color href tooltip body) (tooltip :: names) := by
  intro word
  have htable : Scans (.outside word)
      "<TABLE BORDER=\"0\" CELLBORDER=\"0\" CELLSPACING=\"0\"><TR>" []
      (.outside ['T', 'R', '>']) := scans_tag word (by decide) (by decide)
  have htab : Scans (.outside ['T', 'R', '>'])
      "<TD ALIGN=\"LEFT\" HEIGHT=\"8\" WIDTH=\"16\" FIXEDSIZE=\"true\" BORDER=\"1\" " []
      (.outside []) := scans_ofList (by decide)
  have hfill : Scans (.outside []) "VALIGN=\"BOTTOM\" BGCOLOR=\"" [] (.inside false []) :=
    scans_ofList (by decide)
  have hrow : Scans (.inside false ([] ++ color.toList)) "\"></TD></TR><TR>" []
      (.outside ['T', 'R', '>']) := scans_quote false _ (by decide) (by decide)
  have hcell : Scans (.outside ['T', 'R', '>'])
      "<TD COLSPAN=\"5\" VALIGN=\"TOP\" ALIGN=\"LEFT\" BORDER=\"1\" BGCOLOR=\"" []
      (.inside false []) := scans_ofList (by decide)
  have hlink : Scans (.inside false ([] ++ color.toList)) "\" HREF=\"" [] (.inside false []) :=
    scans_quote false _ (by decide) (by decide)
  have htip : Scans (.inside false ([] ++ href.toList)) "\" TOOLTIP=\"" [] (.inside true []) :=
    scans_quote false _ (by decide) (by decide)
  have hopen := scans_tooltip tooltip
  obtain ⟨word', hword⟩ := hbody ['>']
  have hend : Scans (.outside word') "</TD></TR></TABLE>" []
      (.outside ['/', 'T', 'A', 'B', 'L', 'E', '>']) := scans_tag word' (by decide) (by decide)
  have hupper := ((htable.append htab).append hfill).append (scans_value false [] hcolor)
  have hlower := (((hupper.append hrow).append hcell).append (scans_value false [] hcolor)).append
    hlink
  have hname := (((hlower.append (scans_value false [] hhref)).append htip).append
    (scans_value true [] htooltip)).append hopen
  exact ⟨_, ((hname.append hword).append hend).congr (by simp)⟩

theorem layRows_flatten (row : List Drawn) (width : ℕ) (ds : List Drawn) :
    (layRows row width ds).flatten = row.reverse ++ ds := by
  induction ds generalizing row width with
  | nil => simp [layRows]
  | cons d ds ih =>
    unfold layRows
    split_ifs
    · simp [ih]
    · simp [ih]

/-- The inside of a package shows what the boxes in it show, row by row. -/
theorem shows_packageBody {last : String} (hlast : '"' ∉ last.toList) {rows : List (List Drawn)}
    {names : Drawn → List String} (h : ∀ d ∈ rows.flatten, Shows d.label (names d)) :
    Shows (packageBody last rows) (rows.flatten.flatMap names) := by
  have hcell : ∀ d ∈ rows.flatten, Shows (boxCell d) (names d) := by
    intro d hd
    have hopen : Shows "<TD ALIGN=\"LEFT\">" [] := shows_tag (by decide) ⟨['>'], by decide⟩
    have hclose : Shows "</TD>" [] := shows_literal (by decide)
    exact ((hopen.append (h d hd)).append hclose).congr (by simp)
  have hrow : ∀ row ∈ rows, Shows (rowText row) (row.flatMap names) := by
    intro row hrow
    have hopen : Shows "<TR><TD><TABLE BORDER=\"0\" CELLBORDER=\"0\"><TR>" [] :=
      shows_tag (by decide) ⟨['T', 'R', '>'], by decide⟩
    have hclose : Shows "</TR></TABLE></TD></TR>" [] := shows_literal (by decide)
    have hcells := shows_join fun d hd => hcell d (List.mem_flatten.2 ⟨row, hrow, hd⟩)
    exact ((hopen.append hcells).append hclose).congr (by simp)
  have hopen : Shows "<TABLE BORDER=\"0\" CELLBORDER=\"0\"><TR><TD ALIGN=\"LEFT\">" [] :=
    shows_tag (by decide) ⟨['>'], by decide⟩
  have hclose : Shows "</TD></TR>" [] := shows_literal (by decide)
  have hend : Shows "</TABLE>" [] := shows_literal (by decide)
  have hbody := (((hopen.append (shows_plain hlast)).append hclose).append
    (shows_join hrow)).append hend
  refine hbody.congr ?_
  rw [← List.flatMap_id, List.flatMap_assoc]
  simp

/-! ### Texts without quotes -/

theorem digit_of_mem_toDigitsCore {b fuel n : ℕ} (hb : 0 < b) {l : List Char} {c : Char}
    (h : c ∈ Nat.toDigitsCore b fuel n l) : c ∈ l ∨ ∃ d < b, c = Nat.digitChar d := by
  induction fuel generalizing n l with
  | zero => exact Or.inl h
  | succ fuel ih =>
    have hcons : c ∈ Nat.digitChar (n % b) :: l → c ∈ l ∨ ∃ d < b, c = Nat.digitChar d := by
      intro hmem
      rcases List.mem_cons.1 hmem with rfl | hmem
      · exact Or.inr ⟨n % b, Nat.mod_lt n hb, rfl⟩
      · exact Or.inl hmem
    simp only [Nat.toDigitsCore] at h
    split_ifs at h
    · exact hcons h
    · rcases ih h with h | h
      · exact hcons h
      · exact Or.inr h

theorem quote_not_mem_hexDigits (width n : ℕ) : '"' ∉ Text.hexDigits width n := by
  intro hmem
  rcases List.mem_append.1 hmem with hmem | hmem
  · exact absurd (List.eq_of_mem_replicate hmem) (by decide)
  · rcases digit_of_mem_toDigitsCore (by omega) hmem with hmem | ⟨d, hd, hdigit⟩
    · cases hmem
    · interval_cases d <;> exact absurd hdigit (by decide)

theorem quote_not_mem_packageColor (selected : Bool) (depth : ℤ) :
    '"' ∉ (packageColor selected depth).toList := by
  have hchannel : ∀ value shade : ℤ, '"' ∉ channel value shade :=
    fun value shade => quote_not_mem_hexDigits 2 _
  unfold packageColor
  split_ifs
  · decide
  · rw [String.toList_ofList]
    simp [hchannel]

/-- What is written with some identifiers has no quotes when they have none. -/
theorem quote_not_mem_intercalate {sep : String} {parts : List String} (hsep : '"' ∉ sep.toList)
    (h : ∀ p ∈ parts, '"' ∉ p.toList) : '"' ∉ (String.intercalate sep parts).toList := by
  intro hquote
  rcases Text.mem_intercalate hquote with hquote | ⟨p, hp, hquote⟩
  · exact hsep hquote
  · exact h p hp hquote

theorem dropShared_subset (parts context : List String) :
    ∀ p ∈ Name.dropShared parts context, p ∈ parts := by
  induction context generalizing parts with
  | nil => 
    intro p hp
    cases parts with
    | nil => exact hp
    | cons q parts => cases parts <;> exact hp
  | cons c context ih =>
    intro p hp
    cases parts with
    | nil => exact hp
    | cons q parts =>
      cases parts with
      | nil => exact hp
      | cons r parts =>
        simp only [Name.dropShared] at hp
        split_ifs at hp
        · exact List.mem_cons_of_mem _ (ih _ p hp)
        · exact hp

end Diagram

namespace Model

variable {m : Model}

/-- The identifiers of a built index are made of word characters. -/
theorem isWord_of_mem_part (h : m.Valid) {i : EntityId} (hi : i ∈ m.index.listed) {p : String}
    (hp : p ∈ (m.index.nameOf i).parts) {c : Char} (hc : c ∈ p.toList) :
    Text.isWord c = true := by
  obtain ⟨n, hn, rfl⟩ := (mem_listed_iff_place h).1 hi
  rw [nameOf_place h hn] at hp
  exact ((isDotted_of_mem_names h hn).identifier hp).2 c hc

theorem quote_not_mem_part (h : m.Valid) {i : EntityId} (hi : i ∈ m.index.listed) {p : String}
    (hp : p ∈ (m.index.nameOf i).parts) : '"' ∉ p.toList :=
  fun hquote => absurd (isWord_of_mem_part h hi hp hquote) (by decide)

theorem quote_not_mem_text (h : m.Valid) {i : EntityId} (hi : i ∈ m.index.listed) :
    '"' ∉ (m.index.nameOf i).text.toList :=
  Diagram.quote_not_mem_intercalate (by decide) fun _ hp => quote_not_mem_part h hi hp

theorem quote_not_mem_relativeTo (h : m.Valid) {i : EntityId} (hi : i ∈ m.index.listed)
    (context : Name) : '"' ∉ ((m.index.nameOf i).relativeTo context).text.toList :=
  Diagram.quote_not_mem_intercalate (by decide) fun p hp =>
    quote_not_mem_part h hi (Diagram.dropShared_subset _ _ p hp)

theorem quote_not_mem_last (h : m.Valid) {i : EntityId} (hi : i ∈ m.index.listed) :
    '"' ∉ (m.index.nameOf i).last.toList := by
  have hne := parts_nameOf_ne_nil h hi
  refine quote_not_mem_part h hi ?_
  rw [Name.last, List.getLastD_eq_getLast?, List.getLast?_eq_some_getLast hne]
  exact List.getLast_mem hne

end Model

namespace Diagram

/-! ### Boxes -/

namespace Box

theorem induction {p : Box → Prop} (h : ∀ i inner, (∀ x ∈ inner, p x) → p (.node i inner)) :
    ∀ x, p x
  | .node i inner => h i inner fun x _ => Box.induction h x

variable {m : Model} {b : Builder}

/-- The label of a box shows its entities, whatever its rows and colours are. -/
theorem shows_draw (h : m.Valid) (hindex : b.index = m.index)
    (hhref : ∀ i, '"' ∉ (b.hrefFor i).toList) (current : Option EntityId) (x : Box)
    (hx : ∀ i ∈ x.entities, i ∈ m.index.listed) :
    Shows (x.draw b current).label (x.entities.map fun i => (m.index.nameOf i).text) := by
  induction x using Box.induction with
  | h i inner ih =>
    rw [entities_node] at hx ⊢
    have hi := hx i List.mem_cons_self
    have hinner : ∀ y ∈ inner, Shows (y.draw b current).label
        (y.entities.map fun i => (m.index.nameOf i).text) := fun y hy =>
      ih y hy fun j hj => hx j (List.mem_cons_of_mem _ (List.mem_flatMap.2 ⟨y, hy, hj⟩))
    have htext := Model.quote_not_mem_text h hi
    have hlast := Model.quote_not_mem_last h hi
    cases inner with
    | nil =>
      rw [draw, hindex]
      simp only [List.map_nil, List.flatMap_nil, List.map_cons]
      exact shows_moduleIcon (quote_not_mem_packageColor _ _) (hhref i) htext hlast
    | cons y ys =>
      have hdrawn : ∀ d ∈ (y :: ys).map (draw b current), Shows d.label (tooltips d.label) := by
        intro d hd
        obtain ⟨z, hz, rfl⟩ := List.mem_map.1 hd
        rw [(hinner z hz).tooltips_eq]
        exact hinner z hz
      have hrows : (layRows [] 0 ((y :: ys).map (draw b current))).flatten =
          (y :: ys).map (draw b current) := layRows_flatten _ _ _
      have hbody : Shows
          (packageBody (m.index.nameOf i).last (layRows [] 0 ((y :: ys).map (draw b current))))
          (((y :: ys).flatMap entities).map fun i => (m.index.nameOf i).text) := by
        refine (shows_packageBody hlast (hrows ▸ hdrawn)).congr ?_
        rw [hrows, List.flatMap_map, List.map_flatMap]
        exact List.flatMap_congr fun z hz => (hinner z hz).tooltips_eq
      rw [draw, hindex]
      exact shows_packageIcon (quote_not_mem_packageColor _ _) (hhref i) htext hbody

end Box

/-! ### The icons of a tree -/

namespace Builder

variable {m : Model} {b : Builder} {targets : List EntityId} {opts : Options}

/-- No address has quotes. -/
def QuoteFree (b : Builder) : Prop :=
  ∀ l, b.linker = some l → ∀ name url, l name = some url → '"' ∉ url.toList

theorem QuoteFree.hrefFor (h : b.QuoteFree) (i : EntityId) : '"' ∉ (b.hrefFor i).toList := by
  unfold Builder.hrefFor urlFor
  cases hlinker : b.linker with
  | none => simp [noopUrl]
  | some l =>
    cases hurl : l (b.index.nameOf i).text with
    | none => simp [hurl, noopUrl]
    | some url =>
      by_cases hempty : url = ""
      · simp [hurl, hempty, noopUrl]
      · simpa [hurl, hempty] using h l hlinker _ url hurl

theorem richLabel_toNode (s : NodeStyle) (k : ℕ) : (s.toNode k).richLabel = s.richLabel := by
  unfold NodeStyle.toNode
  dsimp only
  split_ifs with h1 h2
  · rfl
  · exact (not_not.1 h1).symm
  · exact (not_not.1 h1).symm

theorem map_richLabel_nodesFrom (style : EntityId → NodeStyle) (k : ℕ) (is : List EntityId) :
    (nodesFrom style k is).map (·.richLabel) = is.map fun i => (style i).richLabel := by
  induction is generalizing k with
  | nil => rfl
  | cons i is ih => rw [nodesFrom_cons, List.map_cons, List.map_cons, ih, richLabel_toNode]

/-- The names that the nodes of some entities show. -/
theorem flatMap_tooltips_nodesFrom (style : EntityId → NodeStyle) (k : ℕ) (is : List EntityId) :
    ((nodesFrom style k is).flatMap fun n => tooltips n.richLabel) =
      is.flatMap fun i => tooltips (style i).richLabel := by
  have hlabels := congrArg (List.flatMap tooltips) (map_richLabel_nodesFrom style k is)
  rwa [List.flatMap_map, List.flatMap_map] at hlabels

/-- The node of a module is an icon with its name. -/
theorem tooltips_nodeStyle (h : m.Valid) (hindex : b.index = m.index) (hquotes : b.QuoteFree)
    (hhtml : b.htmlLabels = true) {i : EntityId} (hi : i ∈ m.index.listed)
    (hmodule : (m.index.entity i).kind = .module) :
    tooltips (b.nodeStyle opts i).richLabel = [(m.index.nameOf i).text] := by
  have hresolve : m.index.resolve i = i := by
    simp [Index.resolve, Index.resolveFrom, Index.aliasOf, hmodule]
  have hshape : b.shapeOf i = .module := by
    unfold shapeOf
    rw [hindex, hresolve, hmodule]
  have hhref := hquotes.hrefFor i
  unfold Builder.hrefFor at hhref
  unfold nodeStyle styleOf NodeStyle.of
  simp only [hshape, hhtml, if_true]
  refine (shows_moduleIcon ?_ hhref ?_ ?_).tooltips_eq.trans ?_
  · split_ifs <;> decide
  · rw [hindex]
    exact Model.quote_not_mem_text h hi
  · rw [hindex]
    exact Model.quote_not_mem_relativeTo h hi _
  · rw [hindex]

/-- The labels of a nested tree are the boxes of the outermost packages. -/
theorem map_richLabel_nestedPlan (c : Dot.Context) :
    ((b.nestedPlan targets opts).draw c).1.nodes.map (·.richLabel) =
      ((b.outermost targets).map (Box.of b.index (b.index.entities.size + 1))).map fun x =>
        (x.draw b (opts.current.map b.index.resolve)).label := by
  rw [List.map_map]
  exact map_richLabel_nodesFrom _ _ _

/-- The names that a nested tree shows, box by box. -/
theorem iconNames_nestedPlan (h : m.Valid) (hindex : b.index = m.index) (hquotes : b.QuoteFree)
    (ht : ∀ t ∈ targets, t ∈ m.index.listed) (c : Dot.Context) :
    iconNames ((b.nestedPlan targets opts).draw c).1 =
      (b.nestedModules targets).map fun i => (m.index.nameOf i).text := by
  unfold nestedModules
  refine (flatMap_tooltips_nodesFrom _ _ _).trans ?_
  rw [List.map_flatMap]
  refine List.flatMap_congr fun p hp => ?_
  have hlisted := listed_of_mem_outermost h hindex ht hp
  change tooltips ((Box.of b.index (b.index.entities.size + 1) p).draw b _).label = _
  rw [hindex]
  refine (Box.shows_draw h hindex hquotes.hrefFor _ _ fun i hi => ?_).tooltips_eq
  exact Model.listed_of_below h hlisted (Box.below_of_mem_entities h hlisted hi)

theorem module_of_below (h : m.Valid) {p d : EntityId} (hp : p ∈ m.index.listed)
    (hmodule : (m.index.entity p).kind = .module) (hd : Below m.index p d) :
    (m.index.entity d).kind = .module := by
  induction hd with
  | refl => exact hmodule
  | tail hbelow hstep _ =>
    exact (Model.of_mem_submodules h (Model.listed_of_below h hp hbelow) hstep).2.1.1

/-- The names that a plain tree shows, in their order. -/
theorem iconNames_plainPlan (h : m.Valid) (hindex : b.index = m.index) (hquotes : b.QuoteFree)
    (hhtml : b.htmlLabels = true)
    (ht : ∀ t ∈ targets, t ∈ m.index.listed ∧ (m.index.entity t).kind = .module)
    (c : Dot.Context) :
    iconNames ((b.plainPlan targets opts).draw c).1 =
      (b.sortByName (b.packagesBelow targets)).map fun i => (m.index.nameOf i).text := by
  refine (flatMap_tooltips_nodesFrom _ _ _).trans ?_
  rw [List.map_eq_flatMap]
  refine List.flatMap_congr fun i hi => ?_
  have hbelow := (List.mergeSort_perm _ _).mem_iff.1 hi
  obtain ⟨t, htarget, hbelow⟩ :=
    (mem_packagesBelow_iff h hindex fun t htarget => (ht t htarget).1).1 hbelow
  exact tooltips_nodeStyle h hindex hquotes hhtml (Model.listed_of_below h (ht t htarget).1 hbelow)
    (module_of_below h (ht t htarget).1 (ht t htarget).2 hbelow)

/-- What two package trees of the same targets draw, one nested and one plain. -/
structure DrawTrees (b : Builder) (ix : Index) (targets : List EntityId) (nested plain : Options)
    (c c' : Dot.Context) (boxes : List Box) (is : List EntityId) : Prop where
  /-- The nested tree draws the boxes. -/
  labels : (b.packageTree targets nested c).1.nodes.map (·.richLabel) =
    boxes.map fun x => (x.draw b (nested.current.map ix.resolve)).label
  /-- The plain tree has one node for each of the modules. -/
  nodes : (b.packageTree targets plain c').1.nodes = nodesFrom (b.nodeStyle plain) c'.nextId is
  /-- The boxes hold no module twice. -/
  boxed : (boxes.flatMap Box.entities).Nodup
  nodup : is.Nodup
  /-- The modules are the targets and all that lies below them. -/
  below : ∀ i, i ∈ is ↔ ∃ t ∈ targets, Below ix t i
  /-- Both trees draw the same modules exactly when no target lies in another one by its name
  only. -/
  agree : (∀ i, i ∈ boxes.flatMap Box.entities ↔ i ∈ is) ↔ Gapless ix targets
  /-- The names in the icons of both trees are those of the modules. -/
  names : b.QuoteFree →
    iconNames (b.packageTree targets nested c).1 =
      (boxes.flatMap Box.entities).map (fun i => (ix.nameOf i).text) ∧
    iconNames (b.packageTree targets plain c').1 = is.map fun i => (ix.nameOf i).text

/-- What the two styles of package trees draw, and when they draw the same modules. -/
theorem drawTrees (m : Model) (ix : Index) (b : Builder) (hbuild : m.build = .ok ix)
    (hindex : b.index = ix) (hversion : b.version.atLeast ⟨[2]⟩ = true) (targets : List EntityId)
    (ht : ∀ t ∈ targets, t ∈ ix.listed ∧ (ix.entity t).kind = .module) (hnodup : targets.Nodup)
    (nested plain : Options) (hnested : nested.style = "" ∨ nested.style = umlStyle)
    (hplain : plain.style ≠ "" ∧ plain.style ≠ umlStyle) (c c' : Dot.Context) :
    ∃ boxes is, DrawTrees b ix targets nested plain c c' boxes is := by
  obtain ⟨hv, rfl⟩ := Model.build_eq_ok_iff.1 hbuild
  have hlisted : ∀ t ∈ targets, t ∈ m.index.listed := fun t htarget => (ht t htarget).1
  have hnests : b.nests nested = true := by
    rcases hnested with h | h <;> simp [nests, htmlLabels, h, hversion]
  have hplains : b.nests plain = false := by simp [nests, hplain]
  obtain ⟨log, hn⟩ := b.packageTree_eq_draw targets nested c
  obtain ⟨log', hp⟩ := b.packageTree_eq_draw targets plain c'
  rw [plan, if_pos hnests] at hn
  rw [plan, if_neg (by simp [hplains])] at hp
  have hboxes : ((b.outermost targets).map
      (Box.of b.index (b.index.entities.size + 1))).flatMap Box.entities =
        b.nestedModules targets := List.flatMap_map _ _ _
  have hsorted : ∀ i, i ∈ b.sortByName (b.packagesBelow targets) ↔ i ∈ b.packagesBelow targets :=
    fun i => (List.mergeSort_perm _ _).mem_iff
  refine ⟨(b.outermost targets).map (Box.of b.index (b.index.entities.size + 1)),
    b.sortByName (b.packagesBelow targets), ?_⟩
  constructor
  case labels =>
    rw [hn, ← hindex]
    exact map_richLabel_nestedPlan c
  case nodes =>
    rw [hp]
    rfl
  case boxed =>
    rw [hboxes]
    exact nodup_nestedModules hv hindex hlisted hnodup
  case nodup => exact (List.mergeSort_perm _ _).nodup_iff.2 (nodup_reachable _ _)
  case below =>
    intro i
    rw [hsorted, mem_packagesBelow_iff hv hindex hlisted]
  case agree =>
    simp only [hboxes, hsorted]
    exact nestedModules_iff_packagesBelow hv hindex hlisted
  case names =>
    intro hquotes
    rw [hboxes, hn, hp]
    exact ⟨iconNames_nestedPlan hv hindex hquotes hlisted c,
      iconNames_plainPlan hv hindex hquotes hversion ht c'⟩

/-- The sample has a package with a submodule, which is drawn inside of it. -/
theorem drawTrees_of_sample :
    ∃ boxes is, DrawTrees ⟨Model.sample.index, none, ⟨[2, 43]⟩⟩ Model.sample.index [0, 1] {}
      { style := treeStyle } {} {} boxes is :=
  drawTrees Model.sample Model.sample.index ⟨Model.sample.index, none, ⟨[2, 43]⟩⟩
    (by decide +kernel) rfl (by decide +kernel) [0, 1] (by decide +kernel) (by decide) {}
    { style := treeStyle } (Or.inl rfl) (by decide) {} {}

/-- A package and a module two levels below it, with nothing in between. -/
def gapSample : Model where
  entities := [{ name := "a", kind := "module" }, { name := "a.b.c", kind := "module" }]

/-- The builder for the sample without pages. -/
def gapBuilder : Builder := ⟨gapSample.index, none, ⟨[2, 43]⟩⟩

/-- The module is left out of the nested tree, since its name lies in that of the package, but it
is no submodule of the package, so that no box holds it. -/
theorem gap_is_not_drawn :
    gapSample.build = .ok gapSample.index ∧
      (∀ t ∈ [0, 1], t ∈ gapSample.index.listed ∧
        (gapSample.index.entity t).kind = .module) ∧
      iconNames (gapBuilder.packageTree [0, 1] {} {}).1 = ["a"] ∧
      iconNames (gapBuilder.packageTree [0, 1] { style := treeStyle } {}).1 = ["a", "a.b.c"] := by
  have hbuild : gapSample.build = .ok gapSample.index := by decide +kernel
  have hv : gapSample.Valid := (Model.build_eq_ok_iff.1 hbuild).1
  have ht : ∀ t ∈ [0, 1], t ∈ gapSample.index.listed ∧
      (gapSample.index.entity t).kind = .module := by decide +kernel
  have hquotes : gapBuilder.QuoteFree := fun l hl => nomatch hl
  refine ⟨hbuild, ht, ?_, ?_⟩
  · obtain ⟨log, hn⟩ := gapBuilder.packageTree_eq_draw [0, 1] {} {}
    have houter : gapBuilder.outermost [0, 1] = [0] := by decide +kernel
    have hsubmodules : (gapSample.index.entity 0).submodules = [] := by decide +kernel
    have hbox :
        (Box.of gapBuilder.index (gapBuilder.index.entities.size + 1) 0).entities = [0] := by
      rw [gapBuilder, Box.entities_of_succ hv _ (ht 0 (by decide)).1, hsubmodules]
      rfl
    rw [hn, plan, if_pos (by decide +kernel),
      iconNames_nestedPlan hv rfl hquotes fun t htarget => (ht t htarget).1, nestedModules, houter,
      List.flatMap_singleton, hbox]
    decide +kernel
  · obtain ⟨log, hp⟩ := gapBuilder.packageTree_eq_draw [0, 1] { style := treeStyle } {}
    have hbelow : gapBuilder.packagesBelow [0, 1] = [0, 1] := by decide +kernel
    have hsorted : gapBuilder.sortByName [0, 1] = [0, 1] :=
      List.mergeSort_of_pairwise (by decide +kernel)
    rw [hp, plan, if_neg (by decide +kernel),
      iconNames_plainPlan hv rfl hquotes (by decide +kernel) ht, hbelow, hsorted]
    decide +kernel

end Builder
end Diagram
end ApiDiagrams
