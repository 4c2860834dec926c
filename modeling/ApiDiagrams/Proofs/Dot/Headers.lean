import ApiDiagrams.Proofs.Dot.Allocation
import ApiDiagrams.Proofs.Dot.RoundTrip

/-!
# Headers and reserved words

A written graph starts with its name. Names are identifiers, but six identifiers are words of the
graph language and name nothing, and a title can ask for any of them. A number behind a name takes it
out of their way, so every reserved word is given out once at most, to the first title that asks for
it.

* `Reader.isReserved_uidBase_iff`: the titles that ask for a reserved word;
* `NamedInOrder`: names that are given out one after the other, and which of them are reserved;
* `Reader.read_header`: a header is read, whatever follows it, unless its name is reserved;
* `header_of_graph?`: the headers of the graphs that can be drawn.
-/

namespace ApiDiagrams
namespace Dot

/-! ### Reserved words -/

namespace Reader

theorem length_le_of_isReserved {w : List Char} (h : isReserved w = true) : w.length ≤ 8 := by
  have hshort : reservedWords.all (fun r => r.toList.length ≤ 8) = true := by decide
  have hle := List.all_eq_true.1 hshort _ (List.contains_iff_mem.1 h)
  simpa using hle

theorem lower_uidChar_eq_iff {c x : Char} (hx : Text.isLower x = true) :
    Text.lower (uidChar c) = x ↔ Text.lower c = x := by
  unfold uidChar
  split_ifs with hkept hupper
  · exact Iff.rfl
  · have hall : ∀ n ≤ 90, 65 ≤ n → Text.isUpper (Char.ofNat (n + 32)) = false := by decide
    have hc := Text.isUpper_iff.1 hupper
    have hagain : Text.lower (Text.lower c) = Text.lower c := by
      rw [Text.lower, if_neg]
      rw [Text.lower, if_pos hupper, hall c.toNat hc.2 hc.1]
      exact Bool.false_ne_true
    rw [hagain]
  · -- neither the underscore nor what it stands for is a letter
    have hunderscore : Text.lower '_' = '_' := by decide
    rw [hunderscore, Text.lower, if_neg hupper]
    refine iff_of_false ?_ ?_
    · rintro rfl
      exact absurd hx (by decide)
    · rintro rfl
      exact hkept (by simp [hx])

theorem map_lower_uidChar_eq_iff {l w : List Char} (hw : ∀ x ∈ w, Text.isLower x = true) :
    (l.map uidChar).map Text.lower = w ↔ l.map Text.lower = w := by
  induction l generalizing w with
  | nil => exact Iff.rfl
  | cons c l ih =>
    cases w with
    | nil => simp
    | cons x w =>
      simp only [List.map_cons, List.cons.injEq]
      rw [lower_uidChar_eq_iff (hw x List.mem_cons_self),
        ih fun y hy => hw y (List.mem_cons_of_mem _ hy)]

theorem isReserved_map_uidChar (l : List Char) : isReserved (l.map uidChar) = isReserved l := by
  have hletters : reservedWords.all (fun r => r.toList.all Text.isLower) = true := by decide
  rw [Bool.eq_iff_iff, isReserved, isReserved, List.contains_iff_mem, List.contains_iff_mem]
  have hword : ∀ l' : List Char, String.ofList l' ∈ reservedWords ↔
      ∃ r ∈ reservedWords, l' = r.toList := fun l' =>
    ⟨fun h => ⟨_, h, String.toList_ofList.symm⟩, by rintro ⟨r, hr, rfl⟩; rwa [String.ofList_toList]⟩
  rw [hword, hword]
  refine exists_congr fun r => and_congr_right fun hr => map_lower_uidChar_eq_iff ?_
  exact List.all_eq_true.1 (List.all_eq_true.1 hletters r hr)

/-- A title asks for a reserved word if nothing is left of it, or if it is one in letters of any
case. -/
theorem isReserved_uidBase_iff (folded : List Char) :
    isReserved (uidBase folded) = true ↔ folded = [] ∨ isReserved folded = true := by
  by_cases hnil : folded = []
  · subst hnil
    exact iff_of_true (by decide) (.inl rfl)
  rw [or_iff_right hnil, ← isReserved_map_uidChar folded]
  have hne : folded.map uidChar ≠ [] := mt List.map_eq_nil_iff.1 hnil
  unfold uidBase
  dsimp only
  rw [if_neg hne]
  generalize folded.map uidChar = u at hne
  obtain ⟨d, u, rfl⟩ := List.exists_cons_of_ne_nil hne
  rw [List.head?_cons, Option.any_some]
  by_cases hd : Text.isDigit d = true
  · -- neither the name with a letter put before nor the digit that asks for it is reserved
    have hfront : isReserved (('g' :: d :: u).take maxUidLength) = false :=
      isReserved_of_isDigit (c := d) (by simp [maxUidLength]) hd
    rw [if_pos hd, hfront, isReserved_of_isDigit List.mem_cons_self hd]
  · rw [if_neg hd]
    by_cases hle : (d :: u).length ≤ maxUidLength
    · rw [List.take_of_length_le hle]
    · refine iff_of_false (fun h => ?_) (fun h => ?_)
      · have hlength := length_le_of_isReserved h
        rw [List.length_take, min_eq_left (not_le.1 hle).le] at hlength
        exact absurd hlength (by decide)
      · exact hle ((length_le_of_isReserved h).trans (by decide))

/-- A name with a number behind it is not reserved. -/
theorem isReserved_candidate (base : List Char) (n : ℕ) :
    isReserved (Context.candidate base n) = false :=
  isReserved_of_not_isLower (c := '_') (by simp [Context.candidate]) (by decide)

end Reader

/-! ### Names in order -/

/-- The names are given out one after the other, to the bases in their order. -/
structure NamedInOrder (bases names : List (List Char)) : Prop where
  length_eq : bases.length = names.length
  named : ∀ i b u, bases[i]? = some b → names[i]? = some u → Context.NameFor (names.take i) b u

namespace NamedInOrder

variable {bases names : List (List Char)} {i : ℕ} {b u : List Char}

theorem concat (h : NamedInOrder bases names) (hu : Context.NameFor names b u) :
    NamedInOrder (bases ++ [b]) (names ++ [u]) := by
  obtain ⟨hlength, hnamed⟩ := h
  refine ⟨by simp [hlength], fun i b' u' hb hu' => ?_⟩
  rcases lt_trichotomy i names.length with hi | rfl | hi
  · rw [List.getElem?_append_left (hlength ▸ hi)] at hb
    rw [List.getElem?_append_left hi] at hu'
    rw [List.take_append_of_le_length hi.le]
    exact hnamed i b' u' hb hu'
  · rw [← hlength, List.getElem?_concat_length] at hb
    rw [List.getElem?_concat_length] at hu'
    cases hb
    cases hu'
    rw [List.take_left]
    exact hu
  · rw [List.getElem?_eq_none (by simp; omega)] at hu'
    cases hu'

theorem exists_base (h : NamedInOrder bases names) (hu : names[i]? = some u) :
    ∃ b, bases[i]? = some b := by
  have hi := (List.getElem?_eq_some_iff.1 hu).1
  rw [← h.length_eq] at hi
  exact ⟨_, List.getElem?_eq_getElem hi⟩

theorem exists_name (h : NamedInOrder bases names) (hb : bases[i]? = some b) :
    ∃ u, names[i]? = some u := by
  have hi := (List.getElem?_eq_some_iff.1 hb).1
  rw [h.length_eq] at hi
  exact ⟨_, List.getElem?_eq_getElem hi⟩

/-- A reserved word is given out once, to the first base that it is. -/
theorem isReserved_iff (h : NamedInOrder bases names) (hb : bases[i]? = some b)
    (hu : names[i]? = some u) : Reader.isReserved u = true ↔
      Reader.isReserved b = true ∧ ∀ j < i, bases[j]? ≠ some b := by
  -- a name that was given out before is still taken
  have htaken : ∀ {j : ℕ} {v : List Char}, j < i → names[j]? = some v → v ∈ names.take i := by
    intro j v hj hv
    refine List.mem_of_getElem? (i := j) ?_
    rw [List.getElem?_take_of_lt hj, hv]
  have hname := h.named i b u hb hu
  constructor
  · intro hreserved
    obtain ⟨hfree, rfl⟩ | ⟨-, n, -, rfl, -⟩ := hname
    · refine ⟨hreserved, fun j hj hbj => ?_⟩
      obtain ⟨v, hv⟩ := h.exists_name hbj
      obtain ⟨-, rfl⟩ | ⟨hmem, -⟩ := h.named j u v hbj hv
      · exact hfree (htaken hj hv)
      · exact hfree ((List.take_sublist_take_left hj.le).subset hmem)
    · rw [Reader.isReserved_candidate] at hreserved
      cases hreserved
  · rintro ⟨hreserved, hfirst⟩
    obtain ⟨-, rfl⟩ | ⟨hmem, -⟩ := hname
    · exact hreserved
    · -- whoever got this name before asked for it, since it has no number behind it
      obtain ⟨j, hj⟩ := List.mem_iff_getElem?.1 hmem
      rw [List.getElem?_take] at hj
      split_ifs at hj with hlt
      obtain ⟨b', hb'⟩ := h.exists_base hj
      obtain ⟨-, rfl⟩ | ⟨-, n, -, rfl, -⟩ := h.named j b' b hb' hj
      · exact absurd hb' (hfirst j hlt)
      · rw [Reader.isReserved_candidate] at hreserved
        cases hreserved

end NamedInOrder

/-! ### The headers of graphs -/

/-- The line that a written graph starts with. -/
def Graph.header (g : Graph) : String := "digraph " ++ g.uid ++ " \x7b\n"

namespace Canvas

/-- The names that the titles of the graphs ask for. -/
def bases (c : Canvas) : List (List Char) :=
  c.titled.map fun t => uidBase (Text.skeleton t.1.toList)

theorem titled_getElem?_of_graph? {c : Canvas} {i : ℕ} {g : Graph} (h : c.graph? i = some g) :
    c.titled[i]? = some (g.title, g.uid.toList) := by
  obtain ⟨s, hs, rfl⟩ := Option.map_eq_some_iff.1 h
  simp [titled, hs]

theorem bases_getElem?_eq_some_iff {c : Canvas} {i : ℕ} {b : List Char} :
    c.bases[i]? = some b ↔
      ∃ g, c.graph? i = some g ∧ uidBase (Text.skeleton g.title.toList) = b := by
  simp [bases, titled, graph?]

end Canvas

theorem namedInOrder_draw (acts : List Act) : NamedInOrder (draw acts).bases (draw acts).names := by
  induction acts using List.reverseRecOn with
  | nil => exact ⟨rfl, fun i b u hb => by simp [draw, Canvas.bases, Canvas.titled] at hb⟩
  | append_singleton acts a ih =>
    rw [draw_concat, Canvas.bases, Canvas.names_eq]
    cases a with
    | newGraph title body caption nodeDefaults edgeDefaults =>
      rw [(kept_draw acts).titled_newGraph, List.map_append, List.map_append, ← Canvas.names_eq]
      exact ih.concat (Canvas.nameFor_nameOf _ title)
    | _ =>
      rw [(kept_draw acts).titled_act rfl, ← Canvas.names_eq]
      exact ih

/-- **The header of every graph that can be drawn.** Its name is an identifier, and a reserved word
only for the first graph whose title asks for that word. The header is then refused, whatever follows
it, and else it is read as the name, whatever follows it. -/
theorem header_of_graph? (acts : List Act) (i : ℕ) (g : Graph)
    (hg : (draw acts).graph? i = some g) :
    Reader.isIdentifier g.uid.toList = true ∧
    (Reader.isReserved g.uid.toList = true ↔
      (Text.skeleton g.title.toList = [] ∨
        Reader.isReserved (Text.skeleton g.title.toList) = true) ∧
      ∀ j < i, ∀ g', (draw acts).graph? j = some g' →
        uidBase (Text.skeleton g'.title.toList) ≠ uidBase (Text.skeleton g.title.toList)) ∧
    (∃ rest, g.text = g.header ++ rest) ∧
    ∀ rest, Reader.read (g.header ++ rest) =
      if Reader.isReserved g.uid.toList then none
      else ((Reader.tokens? rest.toList).bind Reader.statements).map fun ss => ⟨g.uid, ss⟩ := by
  have hid := (isUid_of_graph? hg).isIdentifier
  have hname : (draw acts).names[i]? = some g.uid.toList := by
    rw [Canvas.names_eq, List.getElem?_map, Canvas.titled_getElem?_of_graph? hg, Option.map_some]
  have hbase := Canvas.bases_getElem?_eq_some_iff.2 ⟨g, hg, rfl⟩
  refine ⟨hid, ?_, ⟨_, Reader.text_eq g⟩, fun rest => Reader.read_header hid rest⟩
  rw [(namedInOrder_draw acts).isReserved_iff hbase hname, Reader.isReserved_uidBase_iff]
  refine and_congr_right fun _ => forall₂_congr fun j _ => ?_
  rw [Ne, Canvas.bases_getElem?_eq_some_iff, not_exists]
  exact forall_congr' fun g' => not_and

/-- Of two graphs whose titles ask for a keyword the second gets a name that is none. -/
theorem header_of_second_keyword :
    ∃ acts g, (draw acts).graph? 1 = some g ∧ g.title = "NODE" ∧ g.uid = "node_2" ∧
      Reader.isReserved g.uid.toList = false ∧
      Reader.read (g.header ++ "\x7d") = some ⟨"node_2", []⟩ := by
  let acts : List Act := [.newGraph "Node" "" "" [] [], .newGraph "NODE" "" "" [] []]
  have hg : (draw acts).graph? 1 = some { title := "NODE", uid := "node_2" } := by decide +kernel
  have hfirst : (draw acts).graph? 0 = some { title := "Node", uid := "node" } := by decide +kernel
  obtain ⟨-, hreserved, -, hread⟩ := header_of_graph? acts 1 _ hg
  have hnot : Reader.isReserved "node_2".toList = false := by
    rw [← Bool.not_eq_true, hreserved]
    exact fun h => h.2 0 Nat.one_pos _ hfirst (by decide +kernel)
  refine ⟨acts, _, hg, rfl, rfl, hnot, ?_⟩
  rw [hread, hnot]
  decide +kernel

/-- A title can ask for a keyword, and no title asks for one too: no header with such a name is
read, whatever follows it. -/
theorem keyword_is_given_out :
    ∃ acts g g', (draw acts).graph? 0 = some g ∧ g.title = "Node" ∧ g.uid = "node" ∧
      (draw acts).graph? 1 = some g' ∧ g'.title = "" ∧ g'.uid = "graph" ∧
      ∀ rest, Reader.read (g.header ++ rest) = none ∧ Reader.read (g'.header ++ rest) = none := by
  refine ⟨[.newGraph "Node" "" "" [] [], .newGraph "" "" "" [] []],
    { title := "Node", uid := "node" }, { title := "", uid := "graph" }, by decide +kernel, rfl, rfl,
    by decide +kernel, rfl, rfl, fun rest => ?_⟩
  have hnode : Reader.isReserved "node".toList = true := by decide
  have hgraph : Reader.isReserved "graph".toList = true := by decide
  constructor
  · exact (Reader.read_header (by decide) rest).trans (if_pos hnode)
  · exact (Reader.read_header (by decide) rest).trans (if_pos hgraph)

end Dot
end ApiDiagrams
