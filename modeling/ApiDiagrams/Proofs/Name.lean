import ApiDiagrams.Name
import ApiDiagrams.Validation
import Mathlib.Data.String.Basic
import Mathlib.Tactic

/-!
# Dotted names

Writing and reading names undo each other. A text that passes the check of names is written with
characters only, and its identifiers are nonempty and free of dots, so that the name without its
last identifier can be found by its text. Whatever is asked of names can so be asked of their texts
or of their identifiers.

* `Name.text_parse`: every text is written by the name that it reads as;
* `Name.parse_text`, `Name.parse_text_iff`: identifiers without dots are read back;
* `parent_text_eq_iff`: the parent of a name, by its text;
* `Name.dominates_iff_text`: beginnings of names, by their texts;
* `Name.exists_dropShared_eq`: the short form of a name, by what it shares with its context;
* `IsDotted`, `checkName_eq_ok_iff`: what passes the check, as a text;
* `checkName_eq_ok_iff_parts`: what passes the check, by its identifiers;
* `Text.Raw.pieces`, `Text.Raw.joined`, `checkName_eq_ok_iff_pieces`: the same for bytes;
* `Name.text_agrees_with_parts`: all of this together.
-/

namespace ApiDiagrams

/-! ### Cutting and joining -/

namespace Text

theorem splitOn_eq (sep : Char) (text : List Char) : splitOn sep text = text.splitOn sep := by
  induction text with
  | nil => rfl
  | cons c rest ih =>
    obtain ⟨p, ps, hs⟩ := List.exists_cons_of_ne_nil (splitOn_ne_nil sep rest)
    rw [List.splitOn, List.splitOnP_cons_eq_if_modifyHead, ← List.splitOn, ← ih]
    by_cases hc : c = sep
    · rw [splitOn, if_pos hc, if_pos (beq_iff_eq.2 hc)]
    · rw [splitOn, if_neg hc, if_neg fun heq => hc (beq_iff_eq.1 heq), hs, List.modifyHead_cons]

theorem intercalate_eq (sep : List Char) (pieces : List (List Char)) :
    intercalate sep pieces = sep.intercalate pieces := by
  induction pieces with
  | nil => rfl
  | cons p pieces ih =>
    cases pieces with
    | nil => exact List.intercalate_singleton.symm
    | cons q pieces =>
      rw [intercalate, ih, List.intercalate_cons_cons]
      exact List.cons_ne_nil _ _

/-- No piece of a split list holds the separator. -/
theorem not_mem_of_mem_list_splitOn {α : Type} [BEq α] [LawfulBEq α] {sep : α}
    {text piece : List α} (h : piece ∈ text.splitOn sep) : sep ∉ piece := by
  induction text generalizing piece with
  | nil =>
    rw [List.splitOn_nil, List.mem_singleton] at h
    rw [h]
    exact List.not_mem_nil
  | cons c rest ih =>
    obtain ⟨p, ps, hs⟩ := List.exists_cons_of_ne_nil (List.splitOn_ne_nil sep rest)
    rw [List.splitOn, List.splitOnP_cons_eq_if_modifyHead, ← List.splitOn, hs] at h
    by_cases hc : c = sep
    · rw [if_pos (beq_iff_eq.2 hc)] at h
      rcases List.mem_cons.1 h with rfl | h
      · exact List.not_mem_nil
      · exact ih (hs ▸ h)
    · rw [if_neg fun heq => hc (beq_iff_eq.1 heq), List.modifyHead_cons] at h
      rcases List.mem_cons.1 h with rfl | h
      · have hp := ih (hs ▸ List.mem_cons_self)
        simp [hp, Ne.symm hc]
      · exact ih (hs ▸ List.mem_cons_of_mem _ h)

theorem not_mem_of_mem_splitOn {sep : Char} {text piece : List Char}
    (h : piece ∈ splitOn sep text) : sep ∉ piece := by
  rw [splitOn_eq] at h
  exact not_mem_of_mem_list_splitOn h

theorem splitOn_of_not_mem {sep : Char} {piece : List Char} (h : sep ∉ piece) :
    splitOn sep piece = [piece] := by
  rw [splitOn_eq]
  exact List.splitOnP_eq_singleton fun c hc => beq_eq_false_iff_ne.2 fun heq => h (heq ▸ hc)

theorem splitOn_append {sep : Char} {piece : List Char} (h : sep ∉ piece) (rest : List Char) :
    splitOn sep (piece ++ sep :: rest) = piece :: splitOn sep rest := by
  have hcut := List.splitOnP_append_cons (p := (· == sep)) piece rest (beq_self_eq_true sep)
  rw [splitOn_eq, splitOn_eq, List.splitOn, hcut, ← List.splitOn, ← splitOn_eq, splitOn_of_not_mem h]
  rfl

/-- Pieces without the separator are what their joined text is cut into. -/
theorem splitOn_intercalate {sep : Char} {pieces : List (List Char)} (hne : pieces ≠ [])
    (h : ∀ p ∈ pieces, sep ∉ p) : splitOn sep (intercalate [sep] pieces) = pieces := by
  rw [splitOn_eq, intercalate_eq, List.splitOn_intercalate sep h hne]

theorem toList_intercalate (sep : String) (l : List String) :
    (String.intercalate sep l).toList = intercalate sep.toList (l.map String.toList) := by
  rw [String.toList_intercalate, intercalate_eq]

theorem mem_intercalate {sep : String} {parts : List String} {c : Char}
    (h : c ∈ (String.intercalate sep parts).toList) :
    c ∈ sep.toList ∨ ∃ p ∈ parts, c ∈ p.toList := by
  induction parts with
  | nil => simp at h
  | cons p parts ih =>
    cases parts with
    | nil => exact Or.inr ⟨p, List.mem_cons_self, by simpa using h⟩
    | cons q parts =>
      rw [String.intercalate_cons_cons, String.toList_append, String.toList_append] at h
      rcases List.mem_append.1 h with h | h
      · rcases List.mem_append.1 h with h | h
        · exact Or.inr ⟨p, List.mem_cons_self, h⟩
        · exact Or.inl h
      · rcases ih h with h | ⟨r, hr, h⟩
        · exact Or.inl h
        · exact Or.inr ⟨r, List.mem_cons_of_mem _ hr, h⟩

theorem intercalate_cons {sep : String} (s : String) {parts : List String} (h : parts ≠ []) :
    String.intercalate sep (s :: parts) = s ++ sep ++ String.intercalate sep parts := by
  cases parts with
  | nil => exact absurd rfl h
  | cons t parts => exact String.intercalate_cons_cons

theorem intercalate_append {sep : String} {parts others : List String} (h : parts ≠ [])
    (h' : others ≠ []) :
    String.intercalate sep (parts ++ others) =
      String.intercalate sep parts ++ sep ++ String.intercalate sep others := by
  induction parts with
  | nil => exact absurd rfl h
  | cons s parts ih =>
    rw [List.cons_append, intercalate_cons s (List.append_ne_nil_of_right_ne_nil _ h')]
    by_cases hp : parts = []
    · rw [hp, List.nil_append, String.intercalate_singleton]
    · rw [ih hp, intercalate_cons s hp]
      simp only [String.append_assoc]

theorem intercalate_concat {sep : String} {parts : List String} (h : parts ≠ []) (c : String) :
    String.intercalate sep (parts ++ [c]) = String.intercalate sep parts ++ sep ++ c := by
  rw [intercalate_append h (List.cons_ne_nil _ _), String.intercalate_singleton]

/-- Parts may be joined beforehand. -/
theorem intercalate_nested (sep : String) (before after : List String) {parts : List String}
    (h : parts ≠ []) :
    String.intercalate sep (before ++ String.intercalate sep parts :: after) =
      String.intercalate sep (before ++ parts ++ after) := by
  have hback : String.intercalate sep (String.intercalate sep parts :: after) =
      String.intercalate sep (parts ++ after) := by
    by_cases ha : after = []
    · rw [ha, String.intercalate_singleton, List.append_nil]
    · rw [intercalate_cons _ ha, intercalate_append h ha]
  by_cases hb : before = []
  · rw [hb]
    exact hback
  · rw [List.append_assoc, intercalate_append hb (List.cons_ne_nil _ _), hback,
      intercalate_append hb (List.append_ne_nil_of_left_ne_nil h _)]

end Text

/-! ### Reading and writing -/

namespace Name

/-- A word of letters, digits and underscores. -/
def IsIdentifier (p : String) : Prop := p ≠ "" ∧ ∀ c ∈ p.toList, Text.isWord c = true

theorem eq_of_parts {a b : Name} (h : a.parts = b.parts) : a = b := by
  cases a
  cases b
  exact congrArg Name.mk h

/-- The pieces between the dots of a text are written as the text. -/
theorem text_pieces (s : String) :
    text ⟨(Text.splitOn '.' s.toList).map String.ofList⟩ = s := by
  have hmap : ((Text.splitOn '.' s.toList).map String.ofList).map String.toList =
      Text.splitOn '.' s.toList := by simp [Function.comp_def]
  rw [text, ← String.toList_inj, Text.toList_intercalate, hmap]
  exact Text.intercalate_splitOn '.' s.toList

theorem not_mem_of_mem_pieces {s p : String}
    (h : p ∈ (Text.splitOn '.' s.toList).map String.ofList) : '.' ∉ p.toList := by
  obtain ⟨q, hq, rfl⟩ := List.mem_map.1 h
  rw [String.toList_ofList]
  exact Text.not_mem_of_mem_splitOn hq

theorem text_parse (s : String) : (parse s).text = s := by
  unfold parse
  split_ifs with h
  · exact h.symm
  · exact text_pieces s

theorem parse_injective : Function.Injective parse :=
  Function.LeftInverse.injective text_parse

/-- The text of identifiers without dots is cut into them. -/
theorem splitOn_text {n : Name} (hne : n.parts ≠ []) (h : ∀ p ∈ n.parts, '.' ∉ p.toList) :
    Text.splitOn '.' n.text.toList = n.parts.map String.toList := by
  rw [text, Text.toList_intercalate]
  refine Text.splitOn_intercalate (by simpa using hne) fun p hp => ?_
  obtain ⟨q, hq, rfl⟩ := List.mem_map.1 hp
  exact h q hq

/-- Identifiers without dots are read back, unless there is only an empty one or none. -/
theorem parse_text {n : Name} (hne : n.text ≠ "") (h : ∀ p ∈ n.parts, '.' ∉ p.toList) :
    parse n.text = n := by
  have hparts : n.parts ≠ [] := by
    intro h0
    rw [text, h0] at hne
    exact hne rfl
  rw [parse, if_neg hne, splitOn_text hparts h]
  simp [Function.comp_def]

theorem not_mem_of_mem_parts_parse {s p : String} (h : p ∈ (parse s).parts) : '.' ∉ p.toList := by
  unfold parse at h
  split_ifs at h
  · exact absurd h List.not_mem_nil
  · exact not_mem_of_mem_pieces h

/-- A nonempty text is the parent of a name exactly when it reads as the parent. -/
theorem parent_text_eq_iff {d p : String} (hp : p ≠ "") :
    (parse d).parent.text = p ↔ parse p = (parse d).parent := by
  constructor
  · rintro rfl
    exact parse_text hp fun q hq => not_mem_of_mem_parts_parse (List.mem_of_mem_dropLast hq)
  · intro h
    rw [← h, text_parse]

theorem parts_parse_ne_nil {s : String} (h : s ≠ "") : (parse s).parts ≠ [] := by
  intro h0
  have := text_parse s
  rw [text, h0] at this
  exact h this.symm

/-- A name inside another one is written with one more identifier. -/
theorem text_eq_parent_last {n : Name} (h : n.parent.text ≠ "") :
    n.text = n.parent.text ++ "." ++ n.last := by
  obtain ⟨parts⟩ := n
  have hparent : parts.dropLast ≠ [] := by
    intro h0
    exact h (by rw [text, parent, h0]; rfl)
  have hne : parts ≠ [] := by
    rintro rfl
    exact hparent rfl
  have hparts : parts.dropLast ++ [parts.getLastD ""] = parts := by
    rw [List.getLastD_eq_getLast?, List.getLast?_eq_some_getLast hne, Option.getD_some,
      List.dropLast_concat_getLast]
  calc String.intercalate "." parts
      = String.intercalate "." (parts.dropLast ++ [parts.getLastD ""]) := by rw [hparts]
    _ = String.intercalate "." parts.dropLast ++ "." ++ parts.getLastD "" :=
        Text.intercalate_concat hparent _

/-- Nonempty lists of identifiers without dots are written differently. -/
theorem eq_of_text_eq {n o : Name} (hn : n.parts ≠ []) (ho : o.parts ≠ [])
    (hdots : ∀ p ∈ n.parts, '.' ∉ p.toList) (hdots' : ∀ p ∈ o.parts, '.' ∉ p.toList)
    (h : n.text = o.text) : n = o := by
  have hlists := (splitOn_text hn hdots).symm.trans (h ▸ splitOn_text ho hdots')
  exact eq_of_parts (List.map_injective_iff.2 (fun _ _ => String.toList_inj.1) hlists)

/-- Only the name without identifiers and that of one empty identifier are written as nothing. -/
theorem text_eq_empty_iff {n : Name} : n.text = "" ↔ n.parts = [] ∨ n.parts = [""] := by
  obtain ⟨parts⟩ := n
  constructor
  · intro h
    match parts with
    | [] => exact Or.inl rfl
    | [p] =>
      rw [text, String.intercalate_singleton] at h
      exact Or.inr (by rw [h])
    | p :: q :: rest =>
      rw [text, Text.intercalate_cons p (List.cons_ne_nil _ _)] at h
      simp at h
  · rintro (rfl | rfl) <;> rfl

/-- A name is read back from its text exactly when dots stand only between its identifiers and it is
not written as nothing without being nothing. -/
theorem parse_text_iff (n : Name) :
    parse n.text = n ↔ n.parts ≠ [""] ∧ ∀ p ∈ n.parts, '.' ∉ p.toList := by
  constructor
  · intro h
    refine ⟨fun hone => ?_, fun p hp => ?_⟩
    · rw [text_eq_empty_iff.2 (Or.inr hone), parse, if_pos rfl] at h
      rw [← h] at hone
      cases hone
    · rw [← h] at hp
      exact not_mem_of_mem_parts_parse hp
  · rintro ⟨hone, hdots⟩
    by_cases htext : n.text = ""
    · have hparts := (text_eq_empty_iff.1 htext).resolve_right hone
      rw [htext, parse, if_pos rfl]
      exact eq_of_parts hparts.symm
    · exact parse_text htext hdots

/-! ### Prefixes of names and of texts -/

theorem dominates_iff_starts {n o : Name} :
    n.dominates o = true ↔ n.parts ≠ [] ∧ n.parts <+: o.parts := by
  simp [dominates, List.isPrefixOf_iff_prefix]

theorem text_append {n : Name} {more : List String} (hn : n.parts ≠ []) (hmore : more ≠ []) :
    text ⟨n.parts ++ more⟩ = n.text ++ "." ++ text ⟨more⟩ :=
  Text.intercalate_append hn hmore

/-- When a text goes on behind a name and a dot, its identifiers go on behind those of the name. -/
theorem prefix_of_text_eq_append {n o : Name} (hne : n.parts ≠ [])
    (hn : ∀ p ∈ n.parts, '.' ∉ p.toList) (ho : ∀ p ∈ o.parts, '.' ∉ p.toList) {rest : String}
    (h : o.text = n.text ++ "." ++ rest) : n.parts <+: o.parts := by
  -- the rest of the text is cut into further identifiers
  have hmore : (Text.splitOn '.' rest.toList).map String.ofList ≠ [] := by
    simpa using Text.splitOn_ne_nil '.' rest.toList
  have htext : o.text = text ⟨n.parts ++ (Text.splitOn '.' rest.toList).map String.ofList⟩ := by
    rw [h, text_append hne hmore, text_pieces]
  have hdots : ∀ p ∈ n.parts ++ (Text.splitOn '.' rest.toList).map String.ofList,
      '.' ∉ p.toList := by
    intro p hp
    rcases List.mem_append.1 hp with hp | hp
    · exact hn p hp
    · exact not_mem_of_mem_pieces hp
  have ho' : o.parts ≠ [] := by
    intro hnil
    rw [text_eq_empty_iff.2 (Or.inl hnil)] at h
    simp at h
  rw [eq_of_text_eq ho' (List.append_ne_nil_of_left_ne_nil hne _) ho hdots htext]
  exact List.prefix_append _ _

/-- One name dominates another when it is written the same, or when its text and a dot come first in
the text of the other. Only nothing and a single empty identifier look the same. -/
theorem dominates_iff_text {n o : Name} (hn : ∀ p ∈ n.parts, '.' ∉ p.toList)
    (ho : ∀ p ∈ o.parts, '.' ∉ p.toList) (hone : n.parts = [""] → o.parts ≠ []) :
    n.dominates o = true ↔
      n.parts ≠ [] ∧ (n.text = o.text ∨ ∃ rest, o.text = n.text ++ "." ++ rest) := by
  rw [dominates_iff_starts]
  refine and_congr_right fun hne => ⟨?_, ?_⟩
  · rintro ⟨more, hmore⟩
    by_cases h : more = []
    · rw [h, List.append_nil] at hmore
      exact Or.inl (congrArg text (eq_of_parts hmore))
    · have ho' : o = ⟨n.parts ++ more⟩ := eq_of_parts hmore.symm
      exact Or.inr ⟨_, by rw [ho', text_append hne h]⟩
  · rintro (h | ⟨rest, h⟩)
    · have ho' : o.parts ≠ [] := by
        intro hnil
        rw [text_eq_empty_iff.2 (Or.inl hnil), text_eq_empty_iff] at h
        exact hone (h.resolve_left hne) hnil
      rw [eq_of_text_eq hne ho' hn ho h]
    · exact prefix_of_text_eq_append hne hn ho h

/-! ### Short forms -/

/-- The list is the longest that both lists start with. -/
structure IsSharedStart (start l m : List String) : Prop where
  left : start <+: l
  right : start <+: m
  longest : ∀ other, other <+: l → other <+: m → other.length ≤ start.length

namespace IsSharedStart

variable {start l m : List String} {p q : String}

theorem nil_left (m : List String) : IsSharedStart [] [] m :=
  ⟨List.prefix_rfl, List.nil_prefix, fun other h _ => by simp [List.prefix_nil.1 h]⟩

theorem nil_right (l : List String) : IsSharedStart [] l [] :=
  ⟨List.nil_prefix, List.prefix_rfl, fun other _ h => by simp [List.prefix_nil.1 h]⟩

theorem of_ne (h : p ≠ q) : IsSharedStart [] (p :: l) (q :: m) := by
  refine ⟨List.nil_prefix, List.nil_prefix, fun other hl hm => ?_⟩
  cases other with
  | nil => exact le_rfl
  | cons r other =>
    obtain ⟨rfl, -⟩ := List.cons_prefix_cons.1 hl
    exact absurd (List.cons_prefix_cons.1 hm).1 h

theorem cons (h : IsSharedStart start l m) (p : String) :
    IsSharedStart (p :: start) (p :: l) (p :: m) := by
  refine ⟨List.cons_prefix_cons.2 ⟨rfl, h.left⟩, List.cons_prefix_cons.2 ⟨rfl, h.right⟩, ?_⟩
  intro other hl hm
  cases other with
  | nil => exact Nat.zero_le _
  | cons r other =>
    have hle := h.longest other (List.cons_prefix_cons.1 hl).2 (List.cons_prefix_cons.1 hm).2
    simpa using hle

end IsSharedStart

theorem exists_isSharedStart (l m : List String) : ∃ start, IsSharedStart start l m := by
  induction l generalizing m with
  | nil => exact ⟨[], .nil_left m⟩
  | cons p l ih =>
    cases m with
    | nil => exact ⟨[], .nil_right _⟩
    | cons q m =>
      by_cases h : p = q
      · obtain ⟨start, hstart⟩ := ih m
        exact ⟨p :: start, h ▸ hstart.cons p⟩
      · exact ⟨[], .of_ne h⟩

/-- What is dropped is what both lists start with, but for the last identifier. -/
theorem exists_dropShared_eq (parts context : List String) :
    ∃ start, IsSharedStart start parts context ∧
      dropShared parts context = parts.drop (min start.length (parts.length - 1)) := by
  induction parts generalizing context with
  | nil => exact ⟨[], .nil_left context, rfl⟩
  | cons p rest ih =>
    cases rest with
    | nil =>
      obtain ⟨start, hstart⟩ := exists_isSharedStart [p] context
      refine ⟨start, hstart, ?_⟩
      simp [dropShared]
    | cons q rest =>
      cases context with
      | nil => exact ⟨[], .nil_right _, by simp [dropShared]⟩
      | cons c context =>
        by_cases h : p = c
        · obtain ⟨start, hstart, hdrop⟩ := ih context
          refine ⟨p :: start, h ▸ hstart.cons p, ?_⟩
          rw [dropShared, if_pos h, hdrop]
          have hmin : min (p :: start).length ((p :: q :: rest).length - 1) =
              min start.length ((q :: rest).length - 1) + 1 := by
            simp only [List.length_cons]
            omega
          rw [hmin, List.drop_succ_cons]
        · exact ⟨[], .of_ne h, by simp [dropShared, h]⟩

end Name

/-! ### Names with stray bytes -/

namespace Text
namespace Raw

/-- The pieces of a text between its dots, whatever its bytes are. The empty text has none. -/
def pieces (r : Raw) : List Raw :=
  if r.units = [] then [] else (r.units.splitOn (.char '.')).map Raw.mk

/-- Pieces joined by dots. -/
def joined (ps : List Raw) : Raw := ⟨[ByteUnit.char '.'].intercalate (ps.map units)⟩

theorem joined_pieces (r : Raw) : joined r.pieces = r := by
  obtain ⟨units⟩ := r
  unfold joined pieces
  by_cases h : units = []
  · rw [if_pos h, h]
    rfl
  · rw [if_neg h, List.map_map, Function.comp_def, List.map_id', List.intercalate_splitOn]

/-- Nothing but one empty piece, or none, is joined to nothing. -/
theorem joined_ne_nil {ps : List Raw} (hne : ps ≠ []) (hone : ps ≠ [⟨[]⟩]) :
    (joined ps).units ≠ [] := by
  obtain ⟨p, ps, rfl⟩ := List.exists_cons_of_ne_nil hne
  cases ps with
  | nil =>
    rw [joined, List.map_singleton, List.intercalate_singleton]
    exact fun h => hone (by rw [← h])
  | cons q ps => simp [joined, List.intercalate_cons_cons]

theorem pieces_joined_iff (ps : List Raw) :
    (joined ps).pieces = ps ↔ ps ≠ [⟨[]⟩] ∧ ∀ p ∈ ps, .char '.' ∉ p.units := by
  constructor
  · intro h
    refine ⟨fun hone => ?_, fun p hp => ?_⟩
    · rw [hone] at h
      cases h
    · rw [← h, pieces] at hp
      split_ifs at hp
      · cases hp
      · obtain ⟨piece, hpiece, rfl⟩ := List.mem_map.1 hp
        exact not_mem_of_mem_list_splitOn hpiece
  · rintro ⟨hone, hdots⟩
    by_cases hne : ps = []
    · rw [hne]
      rfl
    · have hpieces : ∀ piece ∈ ps.map units, .char '.' ∉ piece := List.forall_mem_map.2 hdots
      rw [pieces, if_neg (joined_ne_nil hne hone), joined,
        List.splitOn_intercalate _ hpieces (by simpa using hne), List.map_map, Function.comp_def,
        List.map_id']

theorem units_intercalate (l : List String) : (ofString (String.intercalate "." l)).units =
    [ByteUnit.char '.'].intercalate ((l.map ofString).map units) := by
  induction l with
  | nil => rfl
  | cons s l ih =>
    cases l with
    | nil => simp
    | cons t l =>
      rw [List.map_cons, List.map_cons, List.map_cons, List.map_cons, List.intercalate_cons_cons,
        ← List.map_cons, ← List.map_cons, ← ih, String.intercalate_cons_cons]
      simp

theorem joined_ofString (n : Name) : joined (n.parts.map ofString) = n.text :=
  congrArg Raw.mk (units_intercalate n.parts).symm

/-- A text without stray bytes has the identifiers of its name for pieces. -/
theorem pieces_ofString (s : String) : (ofString s).pieces = (Name.parse s).parts.map ofString := by
  have hjoined := joined_ofString (Name.parse s)
  rw [Name.text_parse] at hjoined
  obtain ⟨hone, hdots⟩ := (Name.parse_text_iff (Name.parse s)).1 (by rw [Name.text_parse])
  rw [← hjoined, pieces_joined_iff]
  refine ⟨fun heq => hone ?_, List.forall_mem_map.2 fun p hp hmem => hdots p hp ?_⟩
  · obtain ⟨p, hparts, hp⟩ := List.map_eq_singleton_iff.1 heq
    have hnil : p.toList = [] := by simpa using congrArg units hp
    rw [hparts, String.toList_eq_nil_iff.1 hnil]
  · simpa using hmem

end Raw
end Text

/-! ### The check -/

namespace Text

namespace Raw

theorem byteSize_ofString (s : String) : (ofString s).byteSize = s.utf8ByteSize := by
  have hfold : ∀ (cs : List Char) (n : ℕ),
      (cs.map ByteUnit.char).foldl (fun n u => n + u.bytes.length) n =
        n + (String.ofList cs).utf8ByteSize := by
    intro cs
    induction cs with
    | nil => intro n; rfl
    | cons c cs ih =>
      intro n
      rw [List.map_cons, List.foldl_cons, ih, String.utf8ByteSize_ofList,
        String.utf8ByteSize_ofList, String.utf8Len_cons, ByteUnit.bytes,
        String.length_utf8EncodeChar]
      omega
  have h := hfold s.toList 0
  rw [String.ofList_toList, Nat.zero_add] at h
  exact h

end Raw
end Text

namespace Validation

theorem isDottedName_iff {s : String} : isDottedName s.toList = true ↔
    (Name.parse s).parts ≠ [] ∧ ∀ p ∈ (Name.parse s).parts, Name.IsIdentifier p := by
  by_cases hs : s = ""
  · subst hs
    exact iff_of_false (by decide) fun h => h.1 rfl
  · rw [and_iff_right (Name.parts_parse_ne_nil hs), Name.parse, if_neg hs, isDottedName]
    simp [Name.IsIdentifier]

/-- A text that passes the check of names. -/
structure IsDotted (s : String) : Prop where
  size : s.utf8ByteSize ≤ 512
  parts : isDottedName s.toList = true

theorem IsDotted.ne_empty {s : String} (h : IsDotted s) : s ≠ "" := by
  rintro rfl
  exact absurd h.parts (by decide)

/-- The identifiers of a name that passes the check. -/
theorem IsDotted.identifier {s p : String} (h : IsDotted s) (hp : p ∈ (Name.parse s).parts) :
    p ≠ "" ∧ ∀ c ∈ p.toList, Text.isWord c = true :=
  (isDottedName_iff.1 h.parts).2 p hp

theorem IsDotted.isWord_of_mem_last {s : String} (h : IsDotted s) {c : Char}
    (hc : c ∈ (Name.parse s).last.toList) : Text.isWord c = true := by
  have hne := Name.parts_parse_ne_nil h.ne_empty
  have hlast : (Name.parse s).last ∈ (Name.parse s).parts := by
    rw [Name.last, List.getLastD_eq_getLast?, List.getLast?_eq_some_getLast hne]
    exact List.getLast_mem hne
  exact (h.identifier hlast).2 c hc

theorem isWord_or_dot_of_parts {s : String} (h : ∀ p ∈ (Name.parse s).parts, Name.IsIdentifier p)
    {c : Char} (hc : c ∈ s.toList) : Text.isWord c = true ∨ c = '.' := by
  rw [← Name.text_parse s] at hc
  rcases Text.mem_intercalate hc with hdot | ⟨p, hp, hc⟩
  · exact Or.inr (by simpa using hdot)
  · exact Or.inl ((h p hp).2 c hc)

theorem IsDotted.isWord_or_dot {s : String} (h : IsDotted s) {c : Char} (hc : c ∈ s.toList) :
    Text.isWord c = true ∨ c = '.' :=
  isWord_or_dot_of_parts (fun _ => h.identifier) hc

/-- What passes the check of names: dotted names of characters. -/
theorem checkName_eq_ok_iff {r : Text.Raw} :
    checkName r = .ok () ↔ ∃ s, r = Text.Raw.ofString s ∧ IsDotted s := by
  unfold checkName
  constructor
  · intro h
    split_ifs at h with h1 h2 h3
    obtain ⟨s, hs, hd⟩ : ∃ s, r.text? = some s ∧ isDottedName s.toList = true := by
      simpa [Option.any_eq_true] using h3
    obtain rfl := Text.Raw.text?_eq_some_iff.1 hs
    rw [Text.Raw.byteSize_ofString] at h2
    exact ⟨s, rfl, not_lt.1 h2, hd⟩
  · rintro ⟨s, rfl, hsize, hd⟩
    have htext : (Text.Raw.ofString s).text? = some s := Text.Raw.text?_eq_some_iff.2 rfl
    have hne : s ≠ "" := (IsDotted.mk hsize hd).ne_empty
    have hunits : (Text.Raw.ofString s).units.isEmpty = false := by
      simpa [Text.Raw.ofString] using hne
    rw [hunits, Text.Raw.byteSize_ofString, htext]
    simp [hd, not_lt.2 hsize]

theorem isDotted_lossy {r : Text.Raw} (h : checkName r = .ok ()) : IsDotted r.lossy := by
  obtain ⟨s, rfl, hs⟩ := checkName_eq_ok_iff.1 h
  rwa [Text.Raw.lossy_ofString]

/-- A text whose lossy form has only words and dots has no stray bytes. -/
theorem ofString_lossy {r : Text.Raw}
    (h : ∀ c ∈ r.lossy.toList, Text.isWord c = true ∨ c = '.') : Text.Raw.ofString r.lossy = r := by
  obtain ⟨units⟩ := r
  rw [Text.Raw.ofString, Text.Raw.lossy, String.toList_ofList, List.map_map]
  congr 1
  have hunits : ∀ u ∈ units, Text.ByteUnit.char u.lossy = u := by
    intro u hu
    cases u with
    | char c => rfl
    | stray b =>
      have hmem : (Text.ByteUnit.stray b).lossy ∈ (Text.Raw.mk units).lossy.toList := by
        rw [Text.Raw.lossy, String.toList_ofList]
        exact List.mem_map_of_mem hu
      have hmark : ¬ (Text.isWord '\uFFFD' = true ∨ '\uFFFD' = '.') := by decide
      exact absurd (h _ hmem) hmark
  exact (List.map_congr_left hunits).trans (List.map_id' units)

/-- The check of names accepts a text of at most 512 bytes when it reads as a nonempty list of
words. -/
theorem checkName_eq_ok_iff_parts (r : Text.Raw) : checkName r = .ok () ↔ r.byteSize ≤ 512 ∧
    (Name.parse r.lossy).parts ≠ [] ∧ ∀ p ∈ (Name.parse r.lossy).parts, Name.IsIdentifier p := by
  rw [checkName_eq_ok_iff]
  constructor
  · rintro ⟨s, rfl, hs⟩
    rw [Text.Raw.byteSize_ofString, Text.Raw.lossy_ofString]
    exact ⟨hs.size, isDottedName_iff.1 hs.parts⟩
  · rintro ⟨hsize, hne, hparts⟩
    have hr := ofString_lossy fun c hc => isWord_or_dot_of_parts hparts hc
    refine ⟨r.lossy, hr.symm, ?_, isDottedName_iff.2 ⟨hne, hparts⟩⟩
    rwa [← Text.Raw.byteSize_ofString, hr]

/-- Said about bytes: the check accepts at most 512 of them with pieces between the dots that are all
words. -/
theorem checkName_eq_ok_iff_pieces (r : Text.Raw) : checkName r = .ok () ↔ r.byteSize ≤ 512 ∧
    r.pieces ≠ [] ∧ ∀ p ∈ r.pieces, ∃ word, p = Text.Raw.ofString word ∧ Name.IsIdentifier word := by
  rw [checkName_eq_ok_iff_parts]
  refine and_congr_right fun _ => ⟨?_, ?_⟩
  · rintro ⟨hne, hparts⟩
    have hr := ofString_lossy fun c hc => isWord_or_dot_of_parts hparts hc
    rw [← hr, Text.Raw.pieces_ofString]
    refine ⟨by simpa using hne, List.forall_mem_map.2 fun p hp => ⟨p, rfl, hparts p hp⟩⟩
  · rintro ⟨hne, hwords⟩
    obtain ⟨words, hpieces, hall⟩ : ∃ words : List String,
        r.pieces = words.map Text.Raw.ofString ∧ ∀ w ∈ words, Name.IsIdentifier w := by
      refine ⟨r.pieces.map Text.Raw.lossy, ?_, List.forall_mem_map.2 fun p hp => ?_⟩
      · rw [List.map_map, List.map_congr_left (g := id), List.map_id]
        intro p hp
        obtain ⟨w, rfl, -⟩ := hwords p hp
        exact congrArg Text.Raw.ofString (Text.Raw.lossy_ofString w)
      · obtain ⟨w, rfl, hw⟩ := hwords p hp
        rwa [Text.Raw.lossy_ofString]
    have hr : r = Text.Raw.ofString (Name.text ⟨words⟩) := by
      rw [← Text.Raw.joined_ofString, ← hpieces, Text.Raw.joined_pieces]
    have hparse : Name.parse (Name.text ⟨words⟩) = ⟨words⟩ := by
      refine (Name.parse_text_iff _).2 ⟨fun hone => ?_, fun w hw hdot => ?_⟩
      · have hempty : words = [""] := hone
        exact (hall "" (by rw [hempty]; exact List.mem_singleton_self "")).1 rfl
      · exact absurd ((hall w hw).2 _ hdot) (by decide)
    rw [hr, Text.Raw.lossy_ofString, hparse]
    refine ⟨fun hnil => hne ?_, hall⟩
    have hempty : words = [] := hnil
    rw [hpieces, hempty, List.map_nil]

end Validation

namespace Name

/-- Names as texts and names as identifiers say the same: to the check, to writing and reading, to
the question which name dominates which, and to short forms. The check, reading and writing are
about bytes too, which are cut and joined at the same dots. -/
theorem text_agrees_with_parts :
    (∀ r : Text.Raw, Validation.checkName r = .ok () ↔ r.byteSize ≤ 512 ∧
      (parse r.lossy).parts ≠ [] ∧ ∀ p ∈ (parse r.lossy).parts, IsIdentifier p) ∧
    (∀ s, (parse s).text = s) ∧
    (∀ n : Name, parse n.text = n ↔ n.parts ≠ [""] ∧ ∀ p ∈ n.parts, '.' ∉ p.toList) ∧
    (∀ n o : Name, (∀ p ∈ n.parts, '.' ∉ p.toList) → (∀ p ∈ o.parts, '.' ∉ p.toList) →
      (n.parts = [""] → o.parts ≠ []) →
      (n.dominates o = true ↔
        n.parts ≠ [] ∧ (n.text = o.text ∨ ∃ rest, o.text = n.text ++ "." ++ rest))) ∧
    (∀ n context : Name, ∃ start, IsSharedStart start n.parts context.parts ∧
      (n.relativeTo context).parts = n.parts.drop (min start.length (n.parts.length - 1))) ∧
    (∀ r : Text.Raw, Validation.checkName r = .ok () ↔ r.byteSize ≤ 512 ∧
      r.pieces ≠ [] ∧ ∀ p ∈ r.pieces, ∃ word, p = Text.Raw.ofString word ∧ IsIdentifier word) ∧
    (∀ r : Text.Raw, Text.Raw.joined r.pieces = r) ∧
    (∀ ps, (Text.Raw.joined ps).pieces = ps ↔ ps ≠ [⟨[]⟩] ∧ ∀ p ∈ ps, .char '.' ∉ p.units) ∧
    (∀ s, (Text.Raw.ofString s).pieces = (parse s).parts.map Text.Raw.ofString) ∧
    ∀ n : Name, Text.Raw.joined (n.parts.map Text.Raw.ofString) = Text.Raw.ofString n.text := by
  refine ⟨Validation.checkName_eq_ok_iff_parts, text_parse, parse_text_iff, ?_, ?_,
    Validation.checkName_eq_ok_iff_pieces, Text.Raw.joined_pieces, Text.Raw.pieces_joined_iff,
    Text.Raw.pieces_ofString, Text.Raw.joined_ofString⟩
  · intro n o hn ho hone
    exact dominates_iff_text hn ho hone
  · intro n context
    exact exists_dropShared_eq n.parts context.parts

/-- A name dominates those inside it, not those that only begin with the same letters. -/
theorem text_agrees_with_parts_of_nested :
    (∀ p ∈ ["a"], '.' ∉ p.toList) ∧ (∀ p ∈ ["a", "b"], '.' ∉ p.toList) ∧
      (dominates ⟨["a"]⟩ ⟨["a", "b"]⟩ = true ↔ ["a"] ≠ [] ∧
        (text ⟨["a"]⟩ = text ⟨["a", "b"]⟩ ∨
          ∃ rest, text ⟨["a", "b"]⟩ = text ⟨["a"]⟩ ++ "." ++ rest)) ∧
      dominates ⟨["a"]⟩ ⟨["a", "b"]⟩ = true ∧ dominates ⟨["a"]⟩ ⟨["ab", "b"]⟩ = false := by
  have hn : ∀ p ∈ ["a"], '.' ∉ p.toList := by decide
  have ho : ∀ p ∈ ["a", "b"], '.' ∉ p.toList := by decide
  refine ⟨hn, ho, ?_, by decide, by decide⟩
  exact text_agrees_with_parts.2.2.2.1 ⟨["a"]⟩ ⟨["a", "b"]⟩ hn ho fun h => absurd h (by decide)

end Name
end ApiDiagrams
