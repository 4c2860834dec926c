import ApiDiagrams.Proofs.Diagram.Icons
import ApiDiagrams.Proofs.Diagram.Markup

/-!
# The layout of nested labels

The label of a package is a table in which the boxes of its submodules stand in rows, and each of
them may be such a table itself. Rows are filled greedily: a row goes on as long as the next box
fits in it.

* `cutRows`, `Lays`: pieces cut into rows, with `lays_cutRows`;
* `moduleMarkup`, `packageMarkup`: icons as markup, with what they are written as;
* `Box.markup`, `Box.text_markup`: the label of a box as markup;
* `Box.isGreatest_width`, `Box.isGreatest_depth`: the size of a box;
* `Box.isIn_markup`, `Box.values_markup`: tables, and the colours and names in them.
-/

namespace ApiDiagrams
namespace Diagram

/-! ### Rows -/

section Rows

variable {α β : Type} (width : α → ℕ)

/-- Pieces of some widths cut into rows, as drawn boxes are. -/
def cutRows : (row : List α) → (total : ℕ) → List α → List (List α)
  | row, _, [] => [row.reverse]
  | row, total, x :: rest =>
    if total > 0 && total + width x > maxRowWidth then row.reverse :: cutRows [x] (width x) rest
    else cutRows (x :: row) (total + width x) rest

theorem layRows_eq_cutRows (row : List Drawn) (total : ℕ) (ds : List Drawn) :
    layRows row total ds = cutRows (·.width) row total ds := by
  induction ds generalizing row total with
  | nil => rfl
  | cons d ds ih =>
    rw [layRows, cutRows]
    simp only [ih]

/-- Only widths matter. -/
theorem cutRows_map (f : β → α) (row : List β) (total : ℕ) (l : List β) :
    cutRows width (row.map f) total (l.map f) =
      (cutRows (fun y => width (f y)) row total l).map (List.map f) := by
  induction l generalizing row total with
  | nil => simp [cutRows]
  | cons y l ih =>
    rw [List.map_cons, cutRows, cutRows]
    split_ifs
    · rw [List.map_cons, ← ih, List.map_reverse]
      rfl
    · exact ih (y :: row) _

/-- The pieces stand in rows: in their order, a row of several no wider than allowed, and a new row
only where the next piece would have made the row too wide. -/
structure Lays (l : List α) (rows : List (List α)) : Prop where
  consecutive : rows.flatten = l
  nonempty : ∀ row ∈ rows, row ≠ []
  fits : ∀ row ∈ rows, (row.map width).sum ≤ maxRowWidth ∨ row.length = 1
  full : rows.IsChain fun row next =>
    ∃ x ∈ next.head?, maxRowWidth < (row.map width).sum + width x

/-- The current row ends up in the first row. -/
theorem exists_cutRows_eq (row : List α) (total : ℕ) (l : List α) :
    ∃ more rows, cutRows width row total l = (row.reverse ++ more) :: rows := by
  induction l generalizing row total with
  | nil => exact ⟨[], [], by simp [cutRows]⟩
  | cons x l ih =>
    rw [cutRows]
    split_ifs
    · exact ⟨[], _, by rw [List.append_nil]⟩
    · obtain ⟨more, rows, hcut⟩ := ih (x :: row) (total + width x)
      exact ⟨x :: more, rows, by simpa using hcut⟩

variable {width}

theorem Lays.cons {row : List α} {x : α} {l : List α} {rows : List (List α)}
    (h : Lays width l rows) (hne : row ≠ [])
    (hfits : (row.map width).sum ≤ maxRowWidth ∨ row.length = 1)
    (hfull : maxRowWidth < (row.map width).sum + width x)
    (hhead : ∃ more rest, rows = (x :: more) :: rest) : Lays width (row ++ l) (row :: rows) where
  consecutive := by rw [List.flatten_cons, h.consecutive]
  nonempty := List.forall_mem_cons.2 ⟨hne, h.nonempty⟩
  fits := List.forall_mem_cons.2 ⟨hfits, h.fits⟩
  full := by
    obtain ⟨more, rest, rfl⟩ := hhead
    exact .cons_cons ⟨x, rfl, hfull⟩ h.full

/-- Going on from a row that is allowed so far. -/
theorem lays_cutRows_of_row (hpos : ∀ x, 0 < width x) {row : List α} (l : List α) (hne : row ≠ [])
    (hfits : (row.map width).sum ≤ maxRowWidth ∨ row.length = 1) :
    Lays width (row.reverse ++ l) (cutRows width row (row.map width).sum l) := by
  induction l generalizing row with
  | nil =>
    rw [cutRows]
    constructor
    case consecutive => simp
    case nonempty => simpa using hne
    case fits => simpa using hfits
    case full => exact .singleton _
  | cons x l ih =>
    have htotal : 0 < (row.map width).sum := by
      obtain ⟨y, rest, rfl⟩ := List.exists_cons_of_ne_nil hne
      have := hpos y
      simp only [List.map_cons, List.sum_cons]
      omega
    rw [cutRows]
    split_ifs with hfull
    · simp only [Bool.and_eq_true, decide_eq_true_eq] at hfull
      have hnext : Lays width (x :: l) (cutRows width [x] (width x) l) :=
        ih (List.cons_ne_nil x []) (Or.inr rfl)
      obtain ⟨more, rows, hcut⟩ := exists_cutRows_eq width [x] (width x) l
      refine hnext.cons (by simpa using hne) (by simpa using hfits) ?_ ⟨more, rows, hcut⟩
      simpa using hfull.2
    · have hfits' : ((x :: row).map width).sum ≤ maxRowWidth := by
        simp [htotal] at hfull ⊢
        omega
      have hrow := ih (List.cons_ne_nil x row) (Or.inl hfits')
      simpa [Nat.add_comm] using hrow

theorem lays_cutRows (hpos : ∀ x, 0 < width x) {l : List α} (hne : l ≠ []) :
    Lays width l (cutRows width [] 0 l) := by
  obtain ⟨x, rest, rfl⟩ := List.exists_cons_of_ne_nil hne
  have hrow := lays_cutRows_of_row hpos rest (List.cons_ne_nil x []) (Or.inr rfl)
  simpa [cutRows] using hrow

end Rows

theorem isGreatest_foldl_max (n : ℕ) (l : List ℕ) :
    IsGreatest {k | k ∈ n :: l} (l.foldl max n) := by
  induction l generalizing n with
  | nil => exact ⟨List.mem_cons_self, fun k hk => (List.mem_singleton.1 hk).le⟩
  | cons k l ih =>
    obtain ⟨hmem, hle⟩ := ih (max n k)
    rw [List.foldl_cons]
    constructor
    · rcases List.mem_cons.1 hmem with heq | hmem
      · rw [heq]
        rcases max_choice n k with hmax | hmax <;> simp [hmax]
      · exact List.mem_cons_of_mem _ (List.mem_cons_of_mem _ hmem)
    · intro j hj
      have hfirst : max n k ≤ l.foldl max (max n k) := hle List.mem_cons_self
      rcases List.mem_cons.1 hj with rfl | hj
      · exact (le_max_left _ _).trans hfirst
      · rcases List.mem_cons.1 hj with rfl | hj
        · exact (le_max_right _ _).trans hfirst
        · exact hle (List.mem_cons_of_mem _ hj)

/-! ### Icons as markup -/

/-- The icon of a module. -/
def moduleMarkup (color href tooltip label : String) : Markup :=
  .element "TABLE" [("BORDER", "0"), ("CELLBORDER", "0"), ("CELLSPACING", "0"),
      ("CELLPADDING", "0"), ("PORT", "table"), ("ALIGN", "LEFT")]
    [.element "TR" [] [.element "TD" [("ALIGN", "LEFT"), ("VALIGN", "BOTTOM"), ("HEIGHT", "8"),
      ("WIDTH", "16"), ("FIXEDSIZE", "true"), ("BGCOLOR", color), ("BORDER", "1"),
      ("PORT", "tab")] []],
    .element "TR" [] [.element "TD" [("ALIGN", "LEFT"), ("VALIGN", "TOP"), ("BGCOLOR", color),
      ("BORDER", "1"), ("PORT", "body"), ("HREF", href), ("TOOLTIP", tooltip)]
      (Markup.word label)]]

/-- A box in its row. -/
def cellMarkup (x : Markup) : Markup := .element "TD" [("ALIGN", "LEFT")] [x]

/-- A row of boxes. -/
def rowMarkup (row : List Markup) : Markup :=
  .element "TR" [] [.element "TD" [] [.element "TABLE" [("BORDER", "0"), ("CELLBORDER", "0")]
    [.element "TR" [] (row.map cellMarkup)]]]

/-- The icon of a package, with its short name above the rows of its boxes. -/
def packageMarkup (color href tooltip last : String) (rows : List (List Markup)) : Markup :=
  .element "TABLE" [("BORDER", "0"), ("CELLBORDER", "0"), ("CELLSPACING", "0")]
    [.element "TR" [] [.element "TD" [("ALIGN", "LEFT"), ("HEIGHT", "8"), ("WIDTH", "16"),
      ("FIXEDSIZE", "true"), ("BORDER", "1"), ("VALIGN", "BOTTOM"), ("BGCOLOR", color)] []],
    .element "TR" [] [.element "TD" [("COLSPAN", "5"), ("VALIGN", "TOP"), ("ALIGN", "LEFT"),
      ("BORDER", "1"), ("BGCOLOR", color), ("HREF", href), ("TOOLTIP", tooltip)]
      [.element "TABLE" [("BORDER", "0"), ("CELLBORDER", "0")]
        (.element "TR" [] [.element "TD" [("ALIGN", "LEFT")] (Markup.word last)] ::
          rows.map rowMarkup)]]]

section Written

open Markup

variable {α : Type} {f : α → Markup} {g : α → Drawn}

theorem toList_join_map (line : α → String) (l : List α) :
    (String.join (l.map line)).toList = l.flatMap fun x => (line x).toList := by
  induction l with
  | nil => rfl
  | cons x l ih =>
    rw [List.map_cons, String.join_cons, String.toList_append, ih, List.flatMap_cons]

theorem text_moduleMarkup (color href tooltip label : String) :
    (moduleMarkup color href tooltip label).text =
      (moduleIcon color href tooltip label).toList := by
  unfold moduleMarkup moduleIcon
  simp only [text_element, flatMap_text_word, openText, closeText, attrsText, List.flatMap_cons,
    List.flatMap_nil, String.toList_append, List.append_assoc]
  repeat rw [String.toList_ofList]
  simp only [List.cons_append, List.nil_append, List.append_assoc]

theorem text_cellMarkup {x : Markup} {d : Drawn} (h : x.text = d.label.toList) :
    (cellMarkup x).text = (boxCell d).toList := by
  unfold cellMarkup boxCell
  simp only [text_element, openText, closeText, attrsText, List.flatMap_cons, List.flatMap_nil,
    String.toList_append, List.append_assoc, h]
  repeat rw [String.toList_ofList]
  simp only [List.cons_append, List.nil_append]

theorem text_rowMarkup {row : List α} (h : ∀ y ∈ row, (f y).text = (g y).label.toList) :
    (rowMarkup (row.map f)).text = (rowText (row.map g)).toList := by
  have hcells : ((row.map f).map cellMarkup).flatMap text =
      (String.join ((row.map g).map boxCell)).toList := by
    rw [List.map_map, List.map_map, toList_join_map, List.flatMap_map]
    exact List.flatMap_congr fun y hy => text_cellMarkup (h y hy)
  unfold rowMarkup rowText rowOpen rowClose
  simp only [text_element, openText, closeText, attrsText, List.flatMap_cons, List.flatMap_nil,
    String.toList_append, List.append_assoc, hcells]
  repeat rw [String.toList_ofList]
  simp only [List.cons_append, List.nil_append]

theorem text_packageMarkup (color href tooltip last : String) {rows : List (List α)}
    (h : ∀ y ∈ rows.flatten, (f y).text = (g y).label.toList) :
    (packageMarkup color href tooltip last (rows.map (List.map f))).text =
      (packageIcon color href tooltip (packageBody last (rows.map (List.map g)))).toList := by
  have hrows : ((rows.map (List.map f)).map rowMarkup).flatMap text =
      (String.join ((rows.map (List.map g)).map rowText)).toList := by
    rw [List.map_map, List.map_map, toList_join_map, List.flatMap_map]
    exact List.flatMap_congr fun row hrow =>
      text_rowMarkup fun y hy => h y (List.mem_flatten.2 ⟨row, hrow, hy⟩)
  unfold packageMarkup packageIcon packageBody
  simp only [text_element, flatMap_text_word, openText, closeText, attrsText, List.flatMap_cons,
    List.flatMap_nil, String.toList_append, List.append_assoc, hrows]
  repeat rw [String.toList_ofList]
  simp only [List.cons_append, List.nil_append, List.append_assoc]

end Written

section Values

open Markup

variable {color href tooltip label : String}

theorem isIn_moduleMarkup (hcolor : IsValue color) (hhref : IsValue href)
    (htooltip : IsValue tooltip) (hlabel : IsValue label) :
    IsIn "TD" (moduleMarkup color href tooltip label) := by
  unfold moduleMarkup
  simp +decide only [isIn_element_iff, List.forall_mem_cons, hcolor, hhref, htooltip]
  simpa using fun x hx => isIn_word hlabel hx

theorem isIn_rowMarkup {row : List Markup} (h : ∀ x ∈ row, IsIn "TD" x) :
    IsIn "TABLE" (rowMarkup row) := by
  unfold rowMarkup cellMarkup
  simp +decide only [isIn_element_iff, List.forall_mem_cons, List.forall_mem_map]
  simpa using h

theorem isIn_packageMarkup (hcolor : IsValue color) (hhref : IsValue href)
    (htooltip : IsValue tooltip) (hlabel : IsValue label) {rows : List (List Markup)}
    (h : ∀ x ∈ rows.flatten, IsIn "TD" x) :
    IsIn "TD" (packageMarkup color href tooltip label rows) := by
  have hrows : ∀ row ∈ rows, IsIn "TABLE" (rowMarkup row) := fun row hrow =>
    isIn_rowMarkup fun x hx => h x (List.mem_flatten.2 ⟨row, hrow, hx⟩)
  unfold packageMarkup
  simp +decide only [isIn_element_iff, List.forall_mem_cons, List.forall_mem_map, hcolor, hhref,
    htooltip]
  simpa using ⟨fun x hx => isIn_word hlabel hx, hrows⟩

theorem values_moduleMarkup :
    (moduleMarkup color href tooltip label).values "BGCOLOR" = [color, color] ∧
      (moduleMarkup color href tooltip label).values "TOOLTIP" = [tooltip] := by
  unfold moduleMarkup
  simp

theorem values_rowMarkup {key : String} (hkey : key = "BGCOLOR" ∨ key = "TOOLTIP")
    (row : List Markup) : (rowMarkup row).values key = row.flatMap (values key) := by
  unfold rowMarkup cellMarkup
  rcases hkey with rfl | rfl <;> simp [List.flatMap_map]

theorem values_packageMarkup (color href tooltip label : String) (rows : List (List Markup)) :
    (packageMarkup color href tooltip label rows).values "BGCOLOR" =
      color :: color :: rows.flatten.flatMap (values "BGCOLOR") ∧
    (packageMarkup color href tooltip label rows).values "TOOLTIP" =
      tooltip :: rows.flatten.flatMap (values "TOOLTIP") := by
  have hrows : ∀ key, key = "BGCOLOR" ∨ key = "TOOLTIP" →
      (rows.map rowMarkup).flatMap (values key) = rows.flatten.flatMap (values key) := by
    intro key hkey
    rw [List.flatMap_map, ← List.flatMap_id, List.flatMap_assoc]
    exact List.flatMap_congr fun row _ => values_rowMarkup hkey row
  unfold packageMarkup
  simp [hrows]

end Values

/-! ### Boxes -/

namespace Box

/-- The entity of a box. -/
def entity : Box → EntityId
  | .node i _ => i

/-- The boxes that a box holds. -/
def inner : Box → List Box
  | .node _ inner => inner

/-- A box and all that it holds, the box first and then the contents of the boxes in it. -/
def boxes : Box → List Box
  | .node i inner => .node i inner :: (inner.map boxes).flatten

@[simp] theorem boxes_node (i : EntityId) (inner : List Box) :
    (Box.node i inner).boxes = .node i inner :: inner.flatMap boxes := by
  rw [boxes, List.flatMap_def]

/-- There is a box for each entity. -/
theorem entities_eq (x : Box) : x.entities = x.boxes.map entity := by
  induction x using Box.induction with
  | h i inner ih =>
    rw [entities_node, boxes_node, List.map_cons, List.map_flatMap]
    exact congrArg _ (List.flatMap_congr ih)

variable (b : Builder) (current : Option EntityId)

/-- The fill colour of a box. -/
def fill (x : Box) : String := packageColor (current == some x.entity) x.depth

/-- The boxes of a package in rows. -/
def rows (x : Box) : List (List Box) := cutRows (fun y => (y.draw b current).width) [] 0 x.inner

/-- The label of a box, as markup. -/
def markup : Box → Markup
  | .node i inner =>
    let name := b.index.nameOf i
    let color := fill current (.node i inner)
    let cells := inner.map fun y => ((y.draw b current).width, markup y)
    if inner = [] then moduleMarkup color (b.hrefFor i) name.text name.last
    else packageMarkup color (b.hrefFor i) name.text name.last
      ((cutRows Prod.fst [] 0 cells).map (List.map Prod.snd))

theorem markup_module {x : Box} (h : x.inner = []) : x.markup b current =
    moduleMarkup (x.fill current) (b.hrefFor x.entity) (b.index.nameOf x.entity).text
      (b.index.nameOf x.entity).last := by
  obtain ⟨i, inner⟩ := x
  rw [markup]
  exact if_pos h

theorem markup_package {x : Box} (h : x.inner ≠ []) : x.markup b current =
    packageMarkup (x.fill current) (b.hrefFor x.entity) (b.index.nameOf x.entity).text
      (b.index.nameOf x.entity).last ((x.rows b current).map (List.map (markup b current))) := by
  obtain ⟨i, inner⟩ := x
  have hrows := cutRows_map Prod.fst
    (fun y => ((Box.draw b current y).width, markup b current y)) [] 0 inner
  have hcells : List.map Prod.snd ∘
      List.map (fun y => ((Box.draw b current y).width, markup b current y)) =
        List.map (markup b current) := by
    funext row
    simp
  rw [List.map_nil] at hrows
  rw [markup]
  refine (if_neg h).trans ?_
  rw [hrows, List.map_map, hcells]
  rfl

theorem depth_draw (x : Box) : (x.draw b current).depth = x.depth := by
  induction x using Box.induction with
  | h i inner ih =>
    rw [draw, depth]
    cases inner with
    | nil => rfl
    | cons y ys =>
      have hdepths : ((y :: ys).map (Box.draw b current)).map (·.depth) =
          (y :: ys).map Box.depth := by
        rw [List.map_map]
        exact List.map_congr_left ih
      rw [← hdepths]
      rfl

theorem draw_module {x : Box} (h : x.inner = []) : x.draw b current =
    { label := moduleIcon (x.fill current) (b.hrefFor x.entity) (b.index.nameOf x.entity).text
        (b.index.nameOf x.entity).last
      depth := 1
      width := (b.index.nameOf x.entity).last.utf8ByteSize + 3 } := by
  obtain ⟨i, inner⟩ := x
  obtain rfl : inner = [] := h
  have hdepth : (Box.node i []).depth = 1 := by
    rw [depth]
    rfl
  rw [draw, fill, hdepth]
  rfl

theorem rowWidth_eq_sum (row : List Drawn) : rowWidth row = (row.map (·.width)).sum := by
  rw [rowWidth, List.sum_eq_foldl, List.foldl_map]

theorem draw_package {x : Box} (h : x.inner ≠ []) : x.draw b current =
    { label := packageIcon (x.fill current) (b.hrefFor x.entity) (b.index.nameOf x.entity).text
        (packageBody (b.index.nameOf x.entity).last
          ((x.rows b current).map (List.map (Box.draw b current))))
      depth := x.depth
      width := ((x.rows b current).map fun row =>
        (row.map fun y => (y.draw b current).width).sum).foldl max
          ((b.index.nameOf x.entity).last.utf8ByteSize + 3) } := by
  have hrows : layRows [] 0 (x.inner.map (Box.draw b current)) =
      (x.rows b current).map (List.map (Box.draw b current)) := by
    rw [layRows_eq_cutRows]
    exact cutRows_map _ (Box.draw b current) [] 0 x.inner
  have hdepth := depth_draw b current x
  have hwidths : ((x.rows b current).map (List.map (Box.draw b current))).map rowWidth =
      (x.rows b current).map fun row => (row.map fun y => (y.draw b current).width).sum := by
    rw [List.map_map]
    refine List.map_congr_left fun row _ => ?_
    rw [Function.comp_apply, rowWidth_eq_sum, List.map_map]
    rfl
  rw [← hwidths, ← hrows, fill, ← hdepth]
  obtain ⟨i, inner⟩ := x
  obtain ⟨y, ys, rfl⟩ := List.exists_cons_of_ne_nil h
  rw [draw]
  rfl

theorem isGreatest_width {x : Box} (h : x.inner ≠ []) :
    IsGreatest {n | n = (b.index.nameOf x.entity).last.utf8ByteSize + 3 ∨
      ∃ row ∈ x.rows b current, n = (row.map fun y => (y.draw b current).width).sum}
      (x.draw b current).width := by
  rw [draw_package b current h]
  have hgreatest := isGreatest_foldl_max ((b.index.nameOf x.entity).last.utf8ByteSize + 3)
    ((x.rows b current).map fun row => (row.map fun y => (y.draw b current).width).sum)
  simpa only [List.mem_cons, List.mem_map, eq_comm] using hgreatest

theorem width_pos (x : Box) : 0 < (x.draw b current).width := by
  by_cases h : x.inner = []
  · rw [draw_module b current h]
    exact Nat.succ_pos _
  · have hle := (isGreatest_width b current h).2 (Or.inl rfl)
    omega

theorem lays_rows {x : Box} (h : x.inner ≠ []) :
    Lays (fun y => (y.draw b current).width) x.inner (x.rows b current) :=
  lays_cutRows (width_pos b current) h

theorem mem_inner_of_mem_rows {x y : Box} (h : x.inner ≠ [])
    (hy : y ∈ (x.rows b current).flatten) : y ∈ x.inner := by
  rwa [(lays_rows b current h).consecutive] at hy

theorem flatten_map_rows {x : Box} (h : x.inner ≠ []) :
    ((x.rows b current).map (List.map (markup b current))).flatten =
      x.inner.map (markup b current) := by
  rw [← List.map_flatten, (lays_rows b current h).consecutive]

/-- A box is drawn as its markup is written. -/
theorem text_markup (x : Box) : (x.markup b current).text = (x.draw b current).label.toList := by
  induction x using Box.induction with
  | h i inner ih =>
    by_cases hinner : (Box.node i inner).inner = []
    · rw [markup_module b current hinner, draw_module b current hinner, text_moduleMarkup]
    · rw [markup_package b current hinner, draw_package b current hinner]
      exact text_packageMarkup _ _ _ _ fun y hy => ih y (mem_inner_of_mem_rows b current hinner hy)

theorem depth_pos (x : Box) : 0 < x.depth := by
  obtain ⟨i, inner⟩ := x
  rw [depth]
  exact Nat.succ_pos _

theorem isGreatest_depth {x : Box} (h : x.inner ≠ []) :
    ∃ depth, x.depth = 1 + depth ∧ IsGreatest {n | ∃ y ∈ x.inner, n = y.depth} depth := by
  obtain ⟨i, inner⟩ := x
  obtain ⟨hmem, hle⟩ := isGreatest_foldl_max 0 (inner.map depth)
  refine ⟨(inner.map depth).foldl max 0, by rw [depth, Nat.add_comm], ?_, ?_⟩
  · rcases List.mem_cons.1 hmem with hzero | hmem
    · -- boxes have one level at least, so that no box is left
      obtain ⟨y, ys, rfl⟩ := List.exists_cons_of_ne_nil h
      have hfirst : y.depth ≤ ((y :: ys).map depth).foldl max 0 :=
        hle (List.mem_cons_of_mem _ (List.mem_map_of_mem List.mem_cons_self))
      have hpos := depth_pos y
      omega
    · obtain ⟨y, hy, heq⟩ := List.mem_map.1 hmem
      exact ⟨y, hy, heq.symm⟩
  · rintro n ⟨y, hy, rfl⟩
    exact hle (List.mem_cons_of_mem _ (List.mem_map_of_mem hy))

/-! ### What a label shows -/

section Shown

variable {b : Builder} {current : Option EntityId}

theorem isIn_markup (x : Box) (hcolor : ∀ y ∈ x.boxes, Markup.IsValue (y.fill current))
    (hhref : ∀ i ∈ x.entities, Markup.IsValue (b.hrefFor i))
    (hname : ∀ i ∈ x.entities, Markup.IsValue (b.index.nameOf i).text ∧
      Markup.IsValue (b.index.nameOf i).last) :
    Markup.IsIn "TD" (x.markup b current) := by
  induction x using Box.induction with
  | h i inner ih =>
    rw [boxes_node] at hcolor
    rw [entities_node] at hhref hname
    have hinside : ∀ y ∈ inner, Markup.IsIn "TD" (y.markup b current) := by
      intro y hy
      refine ih y hy (fun z hz => hcolor z ?_) (fun j hj => hhref j ?_) fun j hj => hname j ?_
      all_goals exact List.mem_cons_of_mem _ (List.mem_flatMap.2 ⟨y, hy, ‹_›⟩)
    have hfill := hcolor _ List.mem_cons_self
    have haddress := hhref i List.mem_cons_self
    obtain ⟨htext, hlast⟩ := hname i List.mem_cons_self
    by_cases hinner : (Box.node i inner).inner = []
    · rw [markup_module b current hinner]
      exact isIn_moduleMarkup hfill haddress htext hlast
    · rw [markup_package b current hinner]
      refine isIn_packageMarkup hfill haddress htext hlast ?_
      rw [flatten_map_rows b current hinner]
      exact List.forall_mem_map.2 hinside

/-- Each box has its colour in its tab and in its body, and its name for a tooltip. -/
theorem values_markup (b : Builder) (current : Option EntityId) (x : Box) :
    (x.markup b current).values "BGCOLOR" =
      x.boxes.flatMap (fun y => [y.fill current, y.fill current]) ∧
    (x.markup b current).values "TOOLTIP" =
      x.entities.map fun i => (b.index.nameOf i).text := by
  induction x using Box.induction with
  | h i inner ih =>
    have hcolors := List.flatMap_congr fun y hy => (ih y hy).1
    have hnames := List.flatMap_congr fun y hy => (ih y hy).2
    rw [boxes_node, entities_node, List.flatMap_cons, List.map_cons, List.flatMap_assoc,
      List.map_flatMap, ← hcolors, ← hnames]
    by_cases hinner : (Box.node i inner).inner = []
    · rw [markup_module b current hinner]
      obtain rfl : inner = [] := hinner
      exact values_moduleMarkup
    · have hvalues := values_packageMarkup (fill current (Box.node i inner)) (b.hrefFor i)
        (b.index.nameOf i).text (b.index.nameOf i).last
        (((Box.node i inner).rows b current).map (List.map (markup b current)))
      rw [flatten_map_rows b current hinner, List.flatMap_map, List.flatMap_map] at hvalues
      rw [markup_package b current hinner]
      exact hvalues

end Shown

end Box

end Diagram
end ApiDiagrams
