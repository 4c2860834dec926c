import ApiDiagrams.Proofs.Diagram.Layout
import ApiDiagrams.Proofs.Text.Ascii

/-!
# Nested labels

What the label of a package of a built index shows: a table with one icon for the package and for
each module below it, laid out in rows, and darker the more levels an icon has.

* `IsColor`, `channelOf`: colours and their channels, with `packageColor_eq`;
* `Box.depth_of_add_le`: names are short, so that boxes have few levels;
* `Box.LaidOut`, `Box.Colored`: how a box is laid out and filled;
* `Builder.packageLabel_shows`: the whole label.
-/

namespace ApiDiagrams
namespace Diagram

/-! ### Colours -/

/-- A colour: a number sign and six hexadecimal digits. -/
def IsColor (s : String) : Prop :=
  ∃ digits, s.toList = '#' :: digits ∧ digits.length = 6 ∧
    ∀ c ∈ digits, Text.isHexDigit c = true

/-- A channel of a colour: the number that two of its digits write. -/
def channelOf (s : String) (k : ℕ) : ℕ := Text.hexNumber ((s.toList.drop (1 + 2 * k)).take 2)

/-- The colour of three channels. -/
def ofChannels (red green blue : ℕ) : String :=
  String.ofList ('#' :: (Text.hexDigits 2 red ++ Text.hexDigits 2 green ++ Text.hexDigits 2 blue))

theorem hexDigits_byte {n : ℕ} (h : n < 256) : (Text.hexDigits 2 n).length = 2 ∧
    (∀ c ∈ Text.hexDigits 2 n, Text.isHexDigit c = true) ∧
    Text.hexNumber (Text.hexDigits 2 n) = n := by
  have hbyte : ∀ n < 256, (Text.hexDigits 2 n).length = 2 ∧
      (Text.hexDigits 2 n).all Text.isHexDigit = true ∧
      Text.hexNumber (Text.hexDigits 2 n) = n := by decide +kernel
  simpa only [List.all_eq_true] using hbyte n h

section Channels

variable {red green blue : ℕ} (hred : red < 256) (hgreen : green < 256) (hblue : blue < 256)
include hred hgreen hblue

theorem isColor_ofChannels : IsColor (ofChannels red green blue) := by
  obtain ⟨hlen, hdigits, -⟩ := hexDigits_byte hred
  obtain ⟨hlen', hdigits', -⟩ := hexDigits_byte hgreen
  obtain ⟨hlen'', hdigits'', -⟩ := hexDigits_byte hblue
  refine ⟨_, String.toList_ofList, ?_, ?_⟩
  · simp [hlen, hlen', hlen'']
  · intro c hc
    simp only [List.mem_append] at hc
    rcases hc with (hc | hc) | hc
    · exact hdigits c hc
    · exact hdigits' c hc
    · exact hdigits'' c hc

theorem channelOf_ofChannels : channelOf (ofChannels red green blue) 0 = red ∧
    channelOf (ofChannels red green blue) 1 = green ∧
    channelOf (ofChannels red green blue) 2 = blue := by
  obtain ⟨hlen, -, hvalue⟩ := hexDigits_byte hred
  obtain ⟨hlen', -, hvalue'⟩ := hexDigits_byte hgreen
  obtain ⟨hlen'', -, hvalue''⟩ := hexDigits_byte hblue
  obtain ⟨_, _, hdigits⟩ := List.length_eq_two.1 hlen
  obtain ⟨_, _, hdigits'⟩ := List.length_eq_two.1 hlen'
  obtain ⟨_, _, hdigits''⟩ := List.length_eq_two.1 hlen''
  rw [hdigits] at hvalue
  rw [hdigits'] at hvalue'
  rw [hdigits''] at hvalue''
  unfold channelOf ofChannels
  rw [String.toList_ofList, hdigits, hdigits', hdigits'']
  exact ⟨hvalue, hvalue', hvalue''⟩

end Channels

theorem wrap_eq {n : ℤ} (hlow : -2 ^ 62 ≤ n) (hhigh : n ≤ 2 ^ 62) : Word.wrap n = n := by
  unfold Word.wrap
  refine Int.bmod_eq_of_le ?_ ?_ <;> simp [Word.count] <;> omega

/-- Words are wide enough for channels. -/
theorem channel_eq (value : ℕ) {shade : ℕ} (hvalue : value < 256) (hshade : shade ≤ 2 ^ 32) :
    channel value shade = Text.hexDigits 2 (value - shade) := by
  unfold channel
  rw [wrap_eq (by omega) (by omega)]
  congr 1
  omega

/-- The darkened colour, for boxes of few levels. -/
theorem packageColor_eq {depth : ℕ} (hpos : 0 < depth) (hle : depth ≤ 2 ^ 16) :
    packageColor false depth =
      ofChannels (0xd8 - (depth - 1) * 10) (0xe8 - (depth - 1) * 10) (0xff - (depth - 1) * 10) := by
  have hshade : Word.wrap (((depth : ℤ) - 1) * colorStep) = ((depth - 1) * 10 : ℕ) := by
    unfold colorStep
    rw [wrap_eq (by omega) (by omega)]
    omega
  have hbound : (depth - 1) * 10 ≤ 2 ^ 32 := by omega
  unfold packageColor ofChannels
  rw [if_neg Bool.false_ne_true, hshade]
  have hred := channel_eq 0xd8 (by decide) hbound
  have hgreen := channel_eq 0xe8 (by decide) hbound
  have hblue := channel_eq 0xff (by decide) hbound
  rw [Nat.cast_ofNat] at hred hgreen hblue
  simp only [hred, hgreen, hblue]

end Diagram

/-! ### Names and addresses -/

namespace Text

theorem length_splitOn_le (sep : Char) (text : List Char) :
    (splitOn sep text).length ≤ String.utf8Len text + 1 := by
  induction text with
  | nil => simp [splitOn]
  | cons c text ih =>
    have hsize := c.utf8Size_pos
    rw [String.utf8Len_cons]
    obtain ⟨piece, pieces, hsplit⟩ := List.exists_cons_of_ne_nil (splitOn_ne_nil sep text)
    unfold splitOn
    split_ifs
    · rw [List.length_cons]
      omega
    · rw [hsplit] at ih ⊢
      simp only [List.length_cons] at ih ⊢
      omega

end Text

namespace Model

variable {m : Model}

open Diagram

/-- Names are short, and so they have few identifiers. -/
theorem length_parts_le (h : m.Valid) {i : EntityId} (hi : i ∈ m.index.listed) :
    (m.index.nameOf i).parts.length ≤ 513 := by
  obtain ⟨n, hn, rfl⟩ := (mem_listed_iff_place h).1 hi
  have hdotted := isDotted_of_mem_names h hn
  have hsize := hdotted.size
  have hsplit := Text.length_splitOn_le '.' n.toList
  rw [String.utf8Len_toList] at hsplit
  rw [nameOf_place h hn, Name.parse, if_neg hdotted.ne_empty, List.length_map]
  omega

/-- What is made of identifiers, dots and hyphens may stand in a table. -/
theorem isValue_of_isWord {s : String}
    (h : ∀ c ∈ s.toList, Text.isWord c = true ∨ c = '.' ∨ c = '-') : Markup.IsValue s := by
  intro c hc
  refine ⟨?_, ?_, ?_⟩ <;> rintro rfl <;> exact absurd (h _ hc) (by decide)

theorem isWord_or_dot_of_mem_text (h : m.Valid) {i : EntityId} (hi : i ∈ m.index.listed)
    {c : Char} (hc : c ∈ (m.index.nameOf i).text.toList) : Text.isWord c = true ∨ c = '.' :=
  ((consistent_index h).dotted i hi).isWord_or_dot hc

theorem isValue_last (h : m.Valid) {i : EntityId} (hi : i ∈ m.index.listed) :
    Markup.IsValue (m.index.nameOf i).last := by
  have hne := parts_nameOf_ne_nil h hi
  refine isValue_of_isWord fun c hc => Or.inl (isWord_of_mem_part h hi ?_ hc)
  rw [Name.last, List.getLastD_eq_getLast?, List.getLast?_eq_some_getLast hne]
  exact List.getLast_mem hne

theorem isValue_text (h : m.Valid) {i : EntityId} (hi : i ∈ m.index.listed) :
    Markup.IsValue (m.index.nameOf i).text :=
  isValue_of_isWord fun _ hc => (isWord_or_dot_of_mem_text h hi hc).imp_right Or.inl

theorem eq_of_text_eq (h : m.Valid) {i j : EntityId} (hi : i ∈ m.index.listed)
    (hj : j ∈ m.index.listed) (htext : (m.index.nameOf i).text = (m.index.nameOf j).text) :
    i = j := by
  have hfound := ((consistent_index h).lookup _ _).2 ⟨hi, htext⟩
  rw [((consistent_index h).lookup _ _).2 ⟨hj, rfl⟩] at hfound
  exact (Option.some.inj hfound).symm

/-- A module has a page of its own, and without pages an address that leads nowhere. -/
theorem hrefFor_of_module (h : m.Valid) {b : Builder} (hindex : b.index = m.index)
    (hlinker : b.linker = none ∨ b.linker = some (Pages.urlFor m.index "")) {i : EntityId}
    (hi : i ∈ m.index.listed) (hmodule : (m.index.entity i).kind = .module) :
    b.hrefFor i = noopUrl ∨ b.hrefFor i = (m.index.nameOf i).text ++ "-module.html" := by
  rcases hlinker with hlinker | hlinker
  · exact Or.inl (by simp [Builder.hrefFor, Builder.urlFor, hlinker])
  · have hlookup : m.index.lookup (m.index.nameOf i).text = some i :=
      ((consistent_index h).lookup _ _).2 ⟨hi, rfl⟩
    have hpage : Pages.pageOf m.index i = some ((m.index.nameOf i).text ++ "-module.html") := by
      unfold Pages.pageOf Pages.pageFrom
      rw [hmodule]
      rfl
    have hurl : b.urlFor i = (m.index.nameOf i).text ++ "-module.html" := by
      simp [Builder.urlFor, hlinker, hindex, Pages.urlFor, hlookup, hpage]
    right
    simp [Builder.hrefFor, hurl]

theorem isValue_hrefFor (h : m.Valid) {b : Builder} (hindex : b.index = m.index)
    (hlinker : b.linker = none ∨ b.linker = some (Pages.urlFor m.index "")) {i : EntityId}
    (hi : i ∈ m.index.listed) (hmodule : (m.index.entity i).kind = .module) :
    Markup.IsValue (b.hrefFor i) := by
  rcases hrefFor_of_module h hindex hlinker hi hmodule with hhref | hhref
  · rw [hhref]
    decide
  · rw [hhref]
    refine isValue_of_isWord fun c hc => ?_
    rw [String.toList_append] at hc
    rcases List.mem_append.1 hc with hc | hc
    · exact (isWord_or_dot_of_mem_text h hi hc).imp_right Or.inl
    · have hletters : "-module.html".toList.all
          (fun c => Text.isWord c || c == '.' || c == '-') = true := by decide +kernel
      simpa [or_assoc] using List.all_eq_true.1 hletters c hc

end Model

namespace Diagram

/-! ### The boxes of an index -/

namespace Box

variable {m : Model}

theorem entity_of (ix : Index) (fuel : ℕ) (i : EntityId) : (Box.of ix fuel i).entity = i := by
  cases fuel with
  | zero => rw [of, entity]
  | succ fuel =>
    rw [of]
    split_ifs <;> rfl

/-- Names get longer inwards, and so boxes have few levels. -/
theorem depth_of_add_le (h : m.Valid) (fuel : ℕ) {i : EntityId} (hi : i ∈ m.index.listed) :
    (Box.of m.index fuel i).depth + (m.index.nameOf i).parts.length ≤ 514 := by
  induction fuel generalizing i with
  | zero =>
    have hparts := Model.length_parts_le h hi
    rw [of, depth]
    simp
    omega
  | succ fuel ih =>
    have hparts := Model.length_parts_le h hi
    rw [of_succ h fuel hi]
    by_cases hinner :
        (Box.node i ((m.index.entity i).submodules.map (Box.of m.index fuel))).inner = []
    · have hnil : (m.index.entity i).submodules = [] := List.map_eq_nil_iff.1 hinner
      rw [hnil, depth]
      simp
      omega
    · obtain ⟨depth, hdepth, ⟨y, hy, rfl⟩, -⟩ := isGreatest_depth hinner
      obtain ⟨d, hd, rfl⟩ := List.mem_map.1 hy
      obtain ⟨hlisted, -, -, hlonger⟩ := Model.of_mem_submodules h hi hd
      have hbound := ih hlisted
      omega

/-- A box holds a box for each submodule of its module, as long as fuel is left. -/
theorem inner_of_mem_boxes (h : m.Valid) {fuel : ℕ} {i : EntityId} (hi : i ∈ m.index.listed)
    (hfuel : Model.longer m.index i < fuel) {y : Box} (hy : y ∈ (Box.of m.index fuel i).boxes) :
    y.inner.map entity = (m.index.entity y.entity).submodules := by
  induction fuel generalizing i with
  | zero => omega
  | succ fuel ih =>
    rw [of_succ h fuel hi, boxes_node, List.flatMap_map] at hy
    rcases List.mem_cons.1 hy with rfl | hy
    · change ((m.index.entity i).submodules.map (Box.of m.index fuel)).map entity = _
      rw [List.map_map]
      refine (List.map_congr_left fun d _ => entity_of m.index fuel d).trans (List.map_id' _)
    · obtain ⟨d, hd, hy⟩ := List.mem_flatMap.1 hy
      have hlt := Model.longer_lt_of_mem_submodules h hi hd
      exact ih (Model.of_mem_submodules h hi hd).1 (by omega) hy

/-- What a box holds has no more levels. -/
theorem depth_le_of_mem_boxes {x y : Box} (hy : y ∈ x.boxes) : y.depth ≤ x.depth := by
  induction x using Box.induction with
  | h i inner ih =>
    rw [boxes_node] at hy
    rcases List.mem_cons.1 hy with rfl | hy
    · exact le_rfl
    · obtain ⟨z, hz, hy⟩ := List.mem_flatMap.1 hy
      have hinner : (Box.node i inner).inner ≠ [] := List.ne_nil_of_mem hz
      obtain ⟨depth, hdepth, -, hle⟩ := isGreatest_depth hinner
      have hstep := ih z hz hy
      have hgreatest := hle ⟨z, hz, rfl⟩
      omega

/-! ### What a label shows -/

/-- How a box is drawn, and how deep and wide it is: a module has its name only, and a package has
the boxes of its submodules in rows below its name. -/
structure LaidOut (b : Builder) (current : Option EntityId) (y : Box) : Prop where
  module : y.inner = [] →
    (y.draw b current).depth = 1 ∧
    (y.draw b current).width = (b.index.nameOf y.entity).last.utf8ByteSize + 3 ∧
    y.markup b current = moduleMarkup (y.fill current) (b.hrefFor y.entity)
      (b.index.nameOf y.entity).text (b.index.nameOf y.entity).last
  package : y.inner ≠ [] →
    (∃ depth, (y.draw b current).depth = 1 + depth ∧
      IsGreatest {n | ∃ z ∈ y.inner, n = (z.draw b current).depth} depth) ∧
    ∃ rows, Lays (fun z => (z.draw b current).width) y.inner rows ∧
      IsGreatest {n | n = (b.index.nameOf y.entity).last.utf8ByteSize + 3 ∨
        ∃ row ∈ rows, n = (row.map fun z => (z.draw b current).width).sum}
        (y.draw b current).width ∧
      y.markup b current = packageMarkup (y.fill current) (b.hrefFor y.entity)
        (b.index.nameOf y.entity).text (b.index.nameOf y.entity).last
        (rows.map (List.map (markup b current)))

theorem laidOut (b : Builder) (current : Option EntityId) (y : Box) : y.LaidOut b current where
  module h := by
    rw [markup_module b current h, draw_module b current h]
    exact ⟨rfl, rfl, rfl⟩
  package h := by
    simp only [depth_draw]
    exact ⟨isGreatest_depth h, y.rows b current, lays_rows b current h,
      isGreatest_width b current h, markup_package b current h⟩

/-- How a box is filled: with the colour of the selected module, or with one that is no lighter
than those of the other boxes in it. -/
structure Colored (current : Option EntityId) (y : Box) : Prop where
  isColor : IsColor (y.fill current)
  selected : y.fill current = selectedColor ↔ current = some y.entity
  darker : current ≠ some y.entity → ∀ z ∈ y.boxes, current ≠ some z.entity →
    ∀ k < 3, channelOf (y.fill current) k ≤ channelOf (z.fill current) k

theorem isColor_selectedColor : IsColor selectedColor :=
  ⟨['f', 'f', 'd', '0', 'd', '0'], by decide, rfl, List.all_eq_true.1 (by decide)⟩

theorem fill_of_eq {current : Option EntityId} {y : Box} (h : current = some y.entity) :
    y.fill current = selectedColor := by
  unfold fill packageColor
  rw [h, if_pos (beq_self_eq_true _)]

theorem fill_of_ne {current : Option EntityId} {y : Box} (h : current ≠ some y.entity)
    (hdepth : y.depth ≤ 2 ^ 16) : y.fill current =
      ofChannels (0xd8 - (y.depth - 1) * 10) (0xe8 - (y.depth - 1) * 10)
        (0xff - (y.depth - 1) * 10) := by
  unfold fill
  rw [beq_eq_false_iff_ne.2 h, packageColor_eq y.depth_pos hdepth]

theorem channelOf_fill {current : Option EntityId} {y : Box} (h : current ≠ some y.entity)
    (hdepth : y.depth ≤ 2 ^ 16) : channelOf (y.fill current) 0 = 0xd8 - (y.depth - 1) * 10 ∧
      channelOf (y.fill current) 1 = 0xe8 - (y.depth - 1) * 10 ∧
      channelOf (y.fill current) 2 = 0xff - (y.depth - 1) * 10 := by
  rw [fill_of_ne h hdepth]
  exact channelOf_ofChannels (by omega) (by omega) (by omega)

theorem colored {current : Option EntityId} {y : Box} (hdepth : y.depth ≤ 2 ^ 16) :
    y.Colored current where
  isColor := by
    by_cases h : current = some y.entity
    · rw [fill_of_eq h]
      exact isColor_selectedColor
    · rw [fill_of_ne h hdepth]
      exact isColor_ofChannels (by omega) (by omega) (by omega)
  selected := by
    refine ⟨fun hfill => ?_, fill_of_eq⟩
    by_contra h
    have hred := (channelOf_fill h hdepth).1
    have hselected : channelOf selectedColor 0 = 0xff := by decide +kernel
    rw [hfill, hselected] at hred
    omega
  darker := by
    intro h z hz hz' k hk
    have hle := depth_le_of_mem_boxes hz
    obtain ⟨hred, hgreen, hblue⟩ := channelOf_fill h hdepth
    obtain ⟨hred', hgreen', hblue'⟩ := channelOf_fill hz' (hle.trans hdepth)
    interval_cases k
    · omega
    · omega
    · omega

theorem isValue_fill {current : Option EntityId} {y : Box} (h : IsColor (y.fill current)) :
    Markup.IsValue (y.fill current) := by
  obtain ⟨digits, hdigits, -, hhex⟩ := h
  intro c hc
  rw [hdigits] at hc
  rcases List.mem_cons.1 hc with rfl | hc
  · decide
  · refine ⟨?_, ?_, ?_⟩ <;> rintro rfl <;> exact absurd (hhex _ hc) (by decide)

end Box

/-! ### The whole label -/

/-- A label shows a package, when the page documents `current`: as the box of the package, with the
boxes of its submodules in it. -/
structure ShowsPackage (b : Builder) (current : Option EntityId) (p : EntityId) (d : Drawn)
    (x : Box) : Prop where
  drawn : d = x.draw b current
  entity : x.entity = p
  entities : x.entities = x.boxes.map Box.entity
  /-- Each box holds the submodules of its module, in their order. -/
  inner : ∀ y ∈ x.boxes, y.inner.map Box.entity = (b.index.entity y.entity).submodules
  below : ∀ i, i ∈ x.entities ↔ Below b.index p i
  /-- The label is written element by element, and read back: all tags are closed, each within the
  element that it was opened in. -/
  written : d.label.toList = (x.markup b current).text
  reads : Markup.read d.label = some [x.markup b current]
  table : Markup.IsIn "TD" (x.markup b current)
  balanced : Dot.Reader.balancedFrom 0 d.label.toList = true
  /-- Each module has one icon, and no two have the same name. -/
  tooltips : (x.markup b current).values "TOOLTIP" =
    x.entities.map fun i => (b.index.nameOf i).text
  distinct : ((x.markup b current).values "TOOLTIP").Nodup
  /-- Each box is filled twice, in its tab and in its body. -/
  colors : (x.markup b current).values "BGCOLOR" =
    x.boxes.flatMap fun y => [y.fill current, y.fill current]
  laidOut : ∀ y ∈ x.boxes, y.LaidOut b current
  colored : ∀ y ∈ x.boxes, y.Colored current

namespace Builder

/-- Neither names nor addresses nor colours break the table of what lies below a module. -/
theorem isIn_markup_of_below {m : Model} {b : Builder} {p : EntityId}
    {current : Option EntityId} {x : Box} (h : m.Valid) (hindex : b.index = m.index)
    (hlinker : b.linker = none ∨ b.linker = some (Pages.urlFor m.index ""))
    (hp : p ∈ m.index.listed) (hmodule : (m.index.entity p).kind = .module)
    (hbelow : ∀ i ∈ x.entities, Below m.index p i) (hcolored : ∀ y ∈ x.boxes, y.Colored current) :
    Markup.IsIn "TD" (x.markup b current) := by
  have hlisted : ∀ i ∈ x.entities, i ∈ m.index.listed := fun i hi =>
    Model.listed_of_below h hp (hbelow i hi)
  refine Box.isIn_markup x (fun y hy => Box.isValue_fill (hcolored y hy).isColor)
    (fun i hi => ?_) fun i hi => ?_
  · have hkind := module_of_below h hp hmodule (hbelow i hi)
    exact Model.isValue_hrefFor h hindex hlinker (hlisted i hi) hkind
  · rw [hindex]
    exact ⟨Model.isValue_text h (hlisted i hi), Model.isValue_last h (hlisted i hi)⟩

/-- The label of a module of a built index shows the module and all that lies below it. -/
theorem packageLabel_shows (m : Model) (ix : Index) (b : Builder) (hbuild : m.build = .ok ix)
    (hindex : b.index = ix)
    (hlinker : b.linker = none ∨ b.linker = some (Pages.urlFor ix "")) (p : EntityId)
    (hp : p ∈ ix.listed) (hmodule : (ix.entity p).kind = .module) (current : Option EntityId) :
    ∃ x, ShowsPackage b current p (b.packageLabel p current) x := by
  obtain ⟨hv, rfl⟩ := Model.build_eq_ok_iff.1 hbuild
  have hlonger := Model.longer_lt_size hv p
  obtain ⟨x, hx⟩ : ∃ x, x = Box.of m.index (m.index.entities.size + 1) p := ⟨_, rfl⟩
  have hmem : ∀ i, i ∈ x.entities ↔ Below m.index p i := fun i => by
    rw [hx, Box.mem_entities_iff hv hp]
  have hlisted : ∀ i ∈ x.entities, i ∈ m.index.listed := fun i hi =>
    Model.listed_of_below hv hp ((hmem i).1 hi)
  have hnodup : x.entities.Nodup := hx ▸ Box.nodup_entities hv _ hp
  have hcolored : ∀ y ∈ x.boxes, y.Colored current := by
    intro y hy
    have hbound := Box.depth_of_add_le hv (m.index.entities.size + 1) hp
    rw [← hx] at hbound
    have hle := Box.depth_le_of_mem_boxes hy
    exact Box.colored (by omega)
  have htable : Markup.IsIn "TD" (x.markup b current) :=
    isIn_markup_of_below hv hindex hlinker hp hmodule (fun i hi => (hmem i).1 hi) hcolored
  obtain ⟨hcolors, htooltips⟩ := Box.values_markup b current x
  have hdrawn : b.packageLabel p current = x.draw b current := by
    rw [hx, packageLabel, hindex]
  have hreads : Markup.read (b.packageLabel p current).label = some [x.markup b current] := by
    rw [hdrawn]
    exact Markup.read_of_isIn htable (Box.text_markup b current x).symm
  refine ⟨x, ?_⟩
  constructor
  case drawn => exact hdrawn
  case entity => rw [hx, Box.entity_of]
  case entities => exact Box.entities_eq x
  case inner =>
    intro y hy
    rw [hx] at hy
    rw [hindex]
    exact Box.inner_of_mem_boxes hv hp hlonger hy
  case below =>
    rw [hindex]
    exact hmem
  case written => rw [hdrawn, Box.text_markup]
  case reads => exact hreads
  case table => exact htable
  case balanced => exact Markup.balanced_of_read hreads
  case tooltips => exact htooltips
  case distinct =>
    rw [htooltips, hindex]
    exact hnodup.map_on fun i hi j hj => Model.eq_of_text_eq hv (hlisted i hi) (hlisted j hj)
  case colors => exact hcolors
  case laidOut => exact fun y _ => Box.laidOut b current y
  case colored => exact hcolored

/-- The sample has a package with a submodule, which is selected. -/
theorem packageLabel_shows_of_sample :
    ∃ x, ShowsPackage ⟨Model.sample.index, some (Pages.urlFor Model.sample.index ""), ⟨[2, 43]⟩⟩
      (some 1) 0 (packageLabel ⟨Model.sample.index, some (Pages.urlFor Model.sample.index ""),
        ⟨[2, 43]⟩⟩ 0 (some 1)) x :=
  packageLabel_shows Model.sample Model.sample.index
    ⟨Model.sample.index, some (Pages.urlFor Model.sample.index ""), ⟨[2, 43]⟩⟩
    (by decide +kernel) rfl (Or.inr rfl) 0 (by decide +kernel) (by decide +kernel) (some 1)

end Builder

end Diagram
end ApiDiagrams
