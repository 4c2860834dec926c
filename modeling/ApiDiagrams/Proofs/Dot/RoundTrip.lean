import ApiDiagrams.Proofs.Dot.Drawing
import ApiDiagrams.Proofs.Dot.Statements

/-!
# Written graphs are read back

The text of a graph, read as the graph language, says what the graph is: its name, the defaults,
the settings of its body, then its nodes and its edges in order, each with exactly its attributes.
The ports of the ends of an edge stand among its attributes unless it sets them itself. A value is
read back completed: between double quotes no odd run of backslashes can stand at its end or before
a quote, so two values that differ in such a run only cannot be told apart. A line feed behind an odd
run is the continuation of a line and goes away.

* `Gives`: clauses that give exactly the values of a finite map;
* `Describes`: what is read says what the graph is;
* `Graph.Readable`: the names of the graph and of its attributes, its HTML-like labels and its body
  are as the language wants them;
* `read_text_of_graph?`: the text of every graph that can be drawn is read back;
* `exact_values_are_lost`: no reader whatsoever gives back every value unchanged, and keywords and
  other words cannot stand everywhere.
-/

namespace ApiDiagrams
namespace Dot
namespace Reader

/-! ### What a graph is, as clauses -/

/-- The clauses have distinct names and give exactly the values of `f`. -/
def Gives (cs : Clauses) (f : String → Option Value) : Prop :=
  (cs.map Prod.fst).Nodup ∧ ∀ k, cs.lookup k = f k

section Meaning

-- how a value is read back
variable (value : String → String)

/-- The value of an attribute as it is read. -/
def attrsMeaning (a : Attrs) (k : String) : Option Value :=
  (a.get? k).map fun v => .plain (value v)

/-- The value of an attribute of a node: an HTML-like label stands in place of a plain one. -/
def nodeMeaning (n : Node) (k : String) : Option Value :=
  if n.richLabel ≠ "" ∧ k = "label" then some (.html n.richLabel) else attrsMeaning value n.attrs k

/-- The value of an attribute of an edge: its own, else the port of an end. -/
def edgeMeaning (e : Edge) (k : String) : Option Value :=
  ((e.attrs.get? k).or (e.inherited k)).map fun v => .plain (value v)

/-- What is read says what the graph is. -/
def Describes (g : Graph) (settings : List (String × String)) (d : Digraph) : Prop :=
  d.name = g.uid ∧ ∃ nodeDefaults edgeDefaults vertices arrows,
    d.statements = [.defaults "node" nodeDefaults, .defaults "edge" edgeDefaults] ++
      settings.map (fun s => .setting s.1 (.plain s.2)) ++ vertices ++ arrows ∧
    Gives nodeDefaults (attrsMeaning value g.nodeDefaults) ∧
    Gives edgeDefaults (attrsMeaning value g.edgeDefaults) ∧
    List.Forall₂ (fun n s => ∃ cs, s = .vertex (nodeName n.id) cs ∧ Gives cs (nodeMeaning value n))
      g.nodes vertices ∧
    List.Forall₂ (fun e s => ∃ cs, s = .arrow (nodeName e.source.id) (nodeName e.target.id) cs ∧
      Gives cs (edgeMeaning value e)) g.edges arrows

end Meaning

theorem lookup_shown (l : List (String × String)) (k : String) :
    (shown l).lookup k = (l.lookup k).map fun v => .plain (restored v) := by
  induction l with
  | nil => rfl
  | cons e l ih =>
    obtain ⟨k', v⟩ := e
    change ((k', Value.plain (restored v)) :: shown l).lookup k = _
    rw [Attrs.lookup_cons_ite, Attrs.lookup_cons_ite, ih]
    split_ifs <;> rfl

theorem map_fst_shown (l : List (String × String)) :
    (shown l).map Prod.fst = l.map Prod.fst := by
  simp [shown, Function.comp_def]

theorem gives_shown {a : Attrs} (h : a.Ordered) :
    Gives (shown a.entries) (attrsMeaning restored a) := by
  refine ⟨?_, lookup_shown a.entries⟩
  rw [map_fst_shown]
  exact h.nodup

/-- The clauses that a node is written with. -/
def nodeClauses (n : Node) : Clauses :=
  if n.richLabel ≠ "" then ("label", .html n.richLabel) :: shown (n.attrs.erase "label").entries
  else shown n.attrs.entries

theorem gives_nodeClauses {n : Node} (h : n.attrs.Ordered) :
    Gives (nodeClauses n) (nodeMeaning restored n) := by
  unfold nodeClauses nodeMeaning
  by_cases hr : n.richLabel = ""
  · simpa [hr] using gives_shown h
  · obtain ⟨hnodup, hlookup⟩ := gives_shown (h.erase "label")
    -- a plain label is dropped, so that the HTML-like one stands alone
    have hlabel : "label" ∉ (shown (n.attrs.erase "label").entries).map Prod.fst := by
      simp [map_fst_shown, Attrs.erase]
    rw [if_pos hr]
    refine ⟨List.nodup_cons.2 ⟨hlabel, hnodup⟩, fun k => ?_⟩
    rw [Attrs.lookup_cons_ite, hlookup]
    unfold attrsMeaning
    rw [Attrs.get?_erase]
    by_cases hk : k = "label" <;> simp [hk, hr]

theorem edgeMeaning_eq (value : String → String) (e : Edge) :
    edgeMeaning value e = attrsMeaning value e.portAttrs := by
  funext k
  rw [edgeMeaning, attrsMeaning, Edge.get?_portAttrs]

theorem gives_edgeClauses {e : Edge} (h : e.attrs.Ordered) :
    Gives (shown e.portAttrs.entries) (edgeMeaning restored e) := by
  rw [edgeMeaning_eq]
  exact gives_shown (Edge.ordered_portAttrs h)

/-! ### Lines of nodes and edges -/

section Keyed

variable {p : List Char → Bool} {a : Attrs}

theorem Keyed.erase (h : Keyed p a) (key : String) : Keyed p (a.erase key) :=
  fun e he => h e (List.mem_of_mem_filter he)

theorem Keyed.insert (h : Keyed p a) {key : String} (hk : p key.toList = true) (value : String) :
    Keyed p (a.insert key value) := by
  intro e he
  rcases Attrs.mem_insertInto he with rfl | he
  · exact hk
  · exact h e he

theorem NameKeys.portAttrs {e : Edge} (h : NameKeys e.attrs) : NameKeys e.portAttrs := by
  have hhead : isName "headport".toList = true := by decide
  have htail : isName "tailport".toList = true := by decide
  unfold Edge.portAttrs
  dsimp only
  split_ifs with h1 h2
  · exact (h.insert hhead _).insert htail _
  · exact h.insert htail _
  · exact h.insert hhead _
  · exact h

end Keyed

theorem format_eq_empty_iff (a : Attrs) : a.format = "" ↔ shown a.entries = [] := by
  obtain ⟨l⟩ := a
  constructor
  · intro h
    have h := congrArg String.toList h
    match l with
    | [] => rfl
    | [e] => simp [Attrs.format] at h
    | e :: x :: l => simp [Attrs.format] at h
  · intro h
    have hl : l = [] := List.map_eq_nil_iff.1 h
    rw [hl]
    rfl

theorem lexes_nodeClauses {n : Node} (hk : WordKeys n.attrs)
    (hb : balancedFrom 0 n.richLabel.toList = true) :
    Lexes n.clauses.toList (clauseTokens (nodeClauses n)) := by
  unfold Node.clauses nodeClauses
  by_cases hr : n.richLabel = ""
  · simpa [hr] using lexes_format hk
  · rw [if_pos hr, if_pos hr]
    have hlabel : Lexes ("label=<" ++ n.richLabel ++ ">").toList
        [.word "label".toList, .mark '=', Value.token (.html n.richLabel)] := by
      have hk : isIdentifier "label".toList = true := by decide
      simpa [Value.token] using lexes_clause hk (lexes_html hb)
    have hrest := lexes_format (hk.erase "label")
    have hempty := format_eq_empty_iff (n.attrs.erase "label")
    dsimp only
    by_cases hf : (n.attrs.erase "label").format = ""
    · rw [if_pos hf, hempty.1 hf, String.append_empty]
      exact hlabel
    · have hcomma : Lexes ",".toList [.mark ','] := by decide
      rw [if_neg hf, clauseTokens_cons _ _ (mt hempty.2 hf), String.toList_append,
        String.toList_append (s := ",")]
      exact hlabel.append (hcomma.append hrest)

theorem clauses_eq_empty_iff (n : Node) : n.clauses = "" ↔ nodeClauses n = [] := by
  unfold Node.clauses nodeClauses
  by_cases hr : n.richLabel = ""
  · simpa [hr] using format_eq_empty_iff n.attrs
  · rw [if_pos hr, if_pos hr]
    refine iff_of_false (fun h => ?_) (List.cons_ne_nil _ _)
    have h := congrArg String.toList h
    simp at h

theorem isNamed_nodeClauses {n : Node} (hk : NameKeys n.attrs) :
    isNamed (nodeClauses n) = true := by
  unfold nodeClauses
  split_ifs
  · have hlabel : isName "label".toList = true := by decide
    have hrest := isNamed_shown (hk.erase "label")
    simp only [isNamed, List.all_cons, hlabel, Bool.true_and] at *
    exact hrest
  · exact isNamed_shown hk

/-- The line of a node is its name and its clauses. -/
theorem lexes_statement {n : Node} (hk : WordKeys n.attrs)
    (hb : balancedFrom 0 n.richLabel.toList = true) :
    Lexes n.statement.toList (.word (nodeName n.id).toList :: bracketTokens (nodeClauses n)) := by
  rw [Node.statement, String.append_assoc, String.toList_append]
  exact Lexes.unquoted (isUnquoted_nodeName _)
    (ends_bracketed (lexes_nodeClauses hk hb) (clauses_eq_empty_iff n))

theorem says_node {n : Node} (hk : NameKeys n.attrs)
    (hb : balancedFrom 0 n.richLabel.toList = true) :
    Says n.statement.toList [.vertex (nodeName n.id) (nodeClauses n)] := by
  have hs := spells_vertex (isReserved_nodeName n.id) (isNamed_nodeClauses hk)
  rw [String.ofList_toList] at hs
  exact says_line (lexes_statement hk.wordKeys hb) hs

theorem says_edge {e : Edge} (hk : NameKeys e.attrs) :
    Says e.statement.toList
      [.arrow (nodeName e.source.id) (nodeName e.target.id) (shown e.portAttrs.entries)] := by
  have hs := spells_arrow (isReserved_nodeName e.source.id) (isReserved_nodeName e.target.id)
    (isNamed_shown hk.portAttrs)
  rw [String.ofList_toList, String.ofList_toList] at hs
  refine says_line ?_ hs
  have htail := Lexes.unquoted (isUnquoted_nodeName e.target.id)
    (ends_bracketed (lexes_format hk.portAttrs.wordKeys) (format_eq_empty_iff e.portAttrs))
  have harrow : Lexes " -> ".toList [.arrow] := by decide
  have hline : e.statement.toList = (nodeName e.source.id).toList ++ (" -> ".toList ++
      ((nodeName e.target.id).toList ++ (bracketed e.portAttrs.format ++ "\n").toList)) := by
    simp [Edge.statement]
  rw [hline]
  exact Lexes.unquoted (isUnquoted_nodeName _) (harrow.ends htail (by decide))

/-! ### The body -/

/-- The body consists of settings without quotes, a line each; the last line may lack its end. -/
structure IsBody (body : String) (settings : List (String × String)) : Prop where
  lines : body = String.join (settings.map settingLine) ∨
    body ++ "\n" = String.join (settings.map settingLine)
  keys : ∀ s ∈ settings, isName s.1.toList = true
  values : ∀ s ∈ settings, isBareValue s.2.toList = true

theorem endsWith_newline_iff (l : List Char) :
    Text.endsWith ['\n'] l = true ↔ l.getLast? = some '\n' := by
  rw [List.getLast?_eq_head?_reverse, Text.endsWith, Text.startsWith]
  cases l.reverse with
  | nil => simp [Text.startsWith?]
  | cons c rest =>
    by_cases hc : '\n' = c
    · simp [Text.startsWith?, ← hc]
    · simp [Text.startsWith?, hc, Ne.symm hc]

theorem getLast?_of_isBareValue {v : List Char} (h : isBareValue v = true) :
    ∃ c, v.getLast? = some c ∧ c ≠ '\n' := by
  obtain ⟨d, u, hv, hd, hu⟩ := bare_of_isUnquoted (Bool.and_eq_true _ _ ▸ h).1
  have hnl : isBare '\n' = false := by decide
  -- the last character is a bare one, also behind a minus sign
  have hlast : v.getLast? = (d :: u).getLast? := by
    rcases hv with rfl | rfl
    · rfl
    · exact List.getLast?_cons_cons
  refine ⟨(d :: u).getLast (List.cons_ne_nil d u),
    hlast.trans (List.getLast?_eq_getLast_of_ne_nil _), fun hc => ?_⟩
  have hmem : '\n' ∈ d :: u := hc ▸ List.getLast_mem (List.cons_ne_nil d u)
  have hbare : isBare '\n' = true := by
    rcases List.mem_cons.1 hmem with rfl | hmem
    · exact hd
    · exact hu _ hmem
  rw [hnl] at hbare
  cases hbare

/-- A body of settings is written as their lines, whether its last line is ended or not. -/
theorem bodyText_of_isBody {g : Graph} {settings : List (String × String)}
    (h : IsBody g.body settings) : g.bodyText = String.join (settings.map settingLine) := by
  obtain ⟨hlines, -, hvalues⟩ := h
  rcases List.eq_nil_or_concat settings with rfl | ⟨init, s, rfl⟩
  · rcases hlines with hb | hb
    · have hb : g.body = "" := hb
      rw [Graph.bodyText, if_pos hb]
      rfl
    · have hb := congrArg String.toList hb
      simp at hb
  · -- all but the end of the last line
    let t := String.join (init.map settingLine) ++ (s.1 ++ "=" ++ s.2)
    have hjoin : String.join ((init ++ [s]).map settingLine) = t ++ "\n" := by
      simp [t, settingLine, ← String.append_assoc]
    obtain ⟨c, hc, hcn⟩ := getLast?_of_isBareValue (hvalues s (by simp))
    have ht : t.toList.getLast? = some c := by
      simp [t, List.getLast?_append, List.getLast?_cons, hc]
    have hne : t ≠ "" := by
      intro h0
      rw [h0] at ht
      cases ht
    rw [List.concat_eq_append, hjoin] at hlines
    rw [List.concat_eq_append, hjoin, Graph.bodyText]
    -- the text adds the end of the last line exactly where the body lacks it
    rcases hlines with hb | hb
    · have hend : Text.endsWith ['\n'] g.body.toList = true := by
        rw [endsWith_newline_iff, hb]
        simp
      rw [if_neg (by rw [hb]; simp), if_pos hend]
      exact hb
    · have hbody : g.body = t := by
        have := congrArg String.toList hb
        rw [String.toList_append, String.toList_append] at this
        exact String.toList_inj.1 (List.append_cancel_right this)
      have hend : Text.endsWith ['\n'] g.body.toList ≠ true := by
        rw [Ne, endsWith_newline_iff, hbody, ht, Option.some.injEq]
        exact hcn
      rw [if_neg (hbody ▸ hne), if_neg hend]
      exact hb

theorem says_body {g : Graph} {settings : List (String × String)} (h : IsBody g.body settings) :
    Says g.bodyText.toList (settings.map fun s => .setting s.1 (.plain s.2)) := by
  rw [bodyText_of_isBody h]
  exact says_join fun s hs => says_setting (h.keys s hs) (h.values s hs)

end Reader

/-! ### Graphs as they are drawn -/

theorem Canvas.Kept.ordered_node {c : Canvas} (hc : c.Kept) (n : ℕ) :
    (c.node n).attrs.Ordered := by
  unfold Canvas.node Array.getD
  split_ifs with hn
  · exact hc.nodes _ (Array.getElem_mem_toList hn)
  · exact Attrs.ordered_empty

theorem ordered_of_graph? {acts : List Act} {i : ℕ} {g : Graph}
    (h : (draw acts).graph? i = some g) : g.Ordered := by
  have hc := kept_draw acts
  obtain ⟨s, hs, rfl⟩ := Option.map_eq_some_iff.1 h
  have hs := hc.sheets s (Array.mem_toList_iff.2 (Array.mem_of_getElem? hs))
  refine ⟨hs.nodeDefaults, hs.edgeDefaults, fun n hn => ?_, fun e he => ?_⟩
  · obtain ⟨m, -, rfl⟩ := List.mem_map.1 hn
    exact hc.ordered_node m
  · obtain ⟨k, hk, rfl⟩ := List.mem_map.1 he
    exact hs.strokes k hk

theorem IsUid.isIdentifier {u : List Char} (h : IsUid u) : Reader.isIdentifier u = true := by
  obtain ⟨hne, hchars, hhead⟩ := h
  have hword : ∀ c, isUidChar c = true → Text.isWord c = true := by
    intro c hc
    simp only [isUidChar, Bool.or_eq_true] at hc
    simp only [Text.isWord, Text.isLetter, Bool.or_eq_true]
    tauto
  cases u with
  | nil => exact absurd rfl hne
  | cons c u =>
    simp only [Reader.isIdentifier, Bool.and_eq_true, Bool.not_eq_true', List.all_eq_true]
    refine ⟨⟨hword c (hchars c List.mem_cons_self), hhead c rfl⟩, fun d hd => ?_⟩
    exact hword d (hchars d (List.mem_cons_of_mem _ hd))

theorem isUid_of_graph? {acts : List Act} {i : ℕ} {g : Graph}
    (h : (draw acts).graph? i = some g) : IsUid g.uid.toList := by
  obtain ⟨s, hs, rfl⟩ := Option.map_eq_some_iff.1 h
  refine (kept_draw acts).isUid _ (List.mem_map.2 ⟨s, ?_, rfl⟩)
  exact Array.mem_toList_iff.2 (Array.mem_of_getElem? hs)

/-! ### Whole graphs -/

/-- The graph is as the language wants it: its name is not reserved, attributes are named by
identifiers that are not reserved, the angle brackets of HTML-like labels match, and the body consists
of settings. -/
structure Graph.Readable (g : Graph) (settings : List (String × String)) : Prop where
  uid : Reader.isReserved g.uid.toList = false
  nodeDefaults : Reader.NameKeys g.nodeDefaults
  edgeDefaults : Reader.NameKeys g.edgeDefaults
  nodes : ∀ n ∈ g.nodes, Reader.NameKeys n.attrs
  richLabels : ∀ n ∈ g.nodes, Reader.balancedFrom 0 n.richLabel.toList = true
  edges : ∀ e ∈ g.edges, Reader.NameKeys e.attrs
  body : Reader.IsBody g.body settings

/-- All attributes that a graph is written with, the ports of its edges among them. -/
def Graph.allAttrs (g : Graph) : List Attrs :=
  g.nodeDefaults :: g.edgeDefaults :: (g.nodes.map Node.attrs ++ g.edges.map Edge.portAttrs)

/-- The values of all attributes of a graph. -/
def Graph.values (g : Graph) : List String :=
  g.allAttrs.flatMap fun a => a.entries.map Prod.snd

namespace Reader

/-- The lines between the braces of a written graph. -/
def lines (g : Graph) : String :=
  ("node [" ++ g.nodeDefaults.format ++ "]\n") ++ (("edge [" ++ g.edgeDefaults.format ++ "]\n") ++
    (g.bodyText ++ (("/* Nodes */\n" ++ String.join (g.nodes.map Node.statement)) ++
      ("/* Edges */\n" ++ String.join (g.edges.map Edge.statement)))))

theorem text_eq (g : Graph) :
    g.text = "digraph " ++ g.uid ++ " \x7b\n" ++ (lines g ++ "\x7d\n") := by
  unfold Graph.text lines
  simp only [String.append_assoc]

/-- The statement that a node is written as. -/
def vertexOf (n : Node) : Statement := .vertex (nodeName n.id) (nodeClauses n)

/-- The statement that an edge is written as. -/
def arrowOf (e : Edge) : Statement :=
  .arrow (nodeName e.source.id) (nodeName e.target.id) (shown e.portAttrs.entries)

/-- The statements that a graph is written as. -/
def written (g : Graph) (settings : List (String × String)) : List Statement :=
  [.defaults "node" (shown g.nodeDefaults.entries)] ++
    ([.defaults "edge" (shown g.edgeDefaults.entries)] ++
      (settings.map (fun s => .setting s.1 (.plain s.2)) ++
        (g.nodes.map vertexOf ++ g.edges.map arrowOf)))

theorem says_lines {g : Graph} {settings : List (String × String)} (h : g.Readable settings) :
    Says (lines g).toList (written g settings) := by
  have hnodes : Says "/* Nodes */\n".toList [] := says_nil (by decide)
  have hedges : Says "/* Edges */\n".toList [] := says_nil (by decide)
  have hnode : "node [" = "node" ++ " [" := by decide
  have hedge : "edge [" = "edge" ++ " [" := by decide
  rw [lines, hnode, hedge]
  refine (says_defaults (Or.inl rfl) h.nodeDefaults).append_string ?_
  refine (says_defaults (Or.inr rfl) h.edgeDefaults).append_string ?_
  refine (says_body h.body).append_string (Says.append_string ?_ ?_)
  · exact hnodes.append_string (says_join fun n hn => says_node (h.nodes n hn) (h.richLabels n hn))
  · exact hedges.append_string (says_join fun e he => says_edge (h.edges e he))

theorem read_text {g : Graph} {settings : List (String × String)} (hu : IsUid g.uid.toList)
    (h : g.Readable settings) : read g.text = some ⟨g.uid, written g settings⟩ := by
  exact read_of_says hu.isIdentifier h.uid (says_lines h) (text_eq g)

theorem describes_written {g : Graph} (h : g.Ordered) (settings : List (String × String)) :
    Describes restored g settings ⟨g.uid, written g settings⟩ := by
  refine ⟨rfl, shown g.nodeDefaults.entries, shown g.edgeDefaults.entries, g.nodes.map vertexOf,
    g.edges.map arrowOf, ?_, gives_shown h.nodeDefaults, gives_shown h.edgeDefaults, ?_, ?_⟩
  · simp [written]
  · refine List.forall₂_map_right_iff.2 (List.forall₂_same.2 fun n hn => ?_)
    exact ⟨_, rfl, gives_nodeClauses (h.nodes n hn)⟩
  · refine List.forall₂_map_right_iff.2 (List.forall₂_same.2 fun e he => ?_)
    exact ⟨_, rfl, gives_edgeClauses (h.edges e he)⟩

/-! ### Values that are read back as they are -/

/-- No odd run of backslashes stands in the value where it matters. -/
def IsPlain (v : String) : Prop := ¬ HasOddRun v ∧ ¬ HasContinuation v

/-- The values are read back as they are. -/
def Whole (a : Attrs) : Prop := ∀ e ∈ a.entries, restored e.2 = e.2

theorem attrsMeaning_of_whole {a : Attrs} (h : Whole a) :
    attrsMeaning restored a = attrsMeaning id a := by
  funext k
  refine Option.map_congr fun v hv => ?_
  obtain ⟨before, after, he, -⟩ := List.lookup_eq_some_iff.1 hv
  have hmem : (k, v) ∈ a.entries := by simp [he]
  rw [h _ hmem, id]

theorem whole_of_mem {g : Graph} (h : ∀ v ∈ g.values, IsPlain v) {a : Attrs}
    (ha : a ∈ g.allAttrs) : Whole a := by
  intro e he
  have hv : e.2 ∈ g.values := List.mem_flatMap.2 ⟨a, ha, List.mem_map.2 ⟨e, he, rfl⟩⟩
  exact restored_eq_self (h _ hv).1 (h _ hv).2

/-- A graph of plain values is read back exactly. -/
theorem Describes.exact {g : Graph} {settings : List (String × String)} {d : Digraph}
    (hd : Describes restored g settings d) (h : ∀ v ∈ g.values, IsPlain v) :
    Describes id g settings d := by
  obtain ⟨hname, nd, ed, vertices, arrows, hs, hnd, hed, hv, ha⟩ := hd
  rw [attrsMeaning_of_whole (whole_of_mem h (by simp [Graph.allAttrs]))] at hnd hed
  have hnodes : ∀ n ∈ g.nodes, nodeMeaning restored n = nodeMeaning id n := by
    intro n hn
    have hn : n.attrs ∈ g.nodes.map Node.attrs := List.mem_map_of_mem hn
    unfold nodeMeaning
    rw [attrsMeaning_of_whole (whole_of_mem h (by simp [Graph.allAttrs, hn]))]
  have hedges : ∀ e ∈ g.edges, edgeMeaning restored e = edgeMeaning id e := by
    intro e he
    have he : e.portAttrs ∈ g.edges.map Edge.portAttrs := List.mem_map_of_mem he
    rw [edgeMeaning_eq, edgeMeaning_eq,
      attrsMeaning_of_whole (whole_of_mem h (by simp [Graph.allAttrs, he]))]
  refine ⟨hname, nd, ed, vertices, arrows, hs, hnd, hed, ?_, ?_⟩
  · refine ((List.forall₂_and_left _ _).2 ⟨hnodes, hv⟩).imp ?_
    rintro n s ⟨hn, cs, rfl, hcs⟩
    exact ⟨cs, rfl, hn ▸ hcs⟩
  · refine ((List.forall₂_and_left _ _).2 ⟨hedges, ha⟩).imp ?_
    rintro e s ⟨he, cs, rfl, hcs⟩
    exact ⟨cs, rfl, he ▸ hcs⟩

end Reader

/-- The text of every graph that can be drawn, if it is as the language wants it, is read back:
everything stands in it in order, with restored values, and exactly when no value has an odd run of
backslashes before a quote, before a line feed or at its end. -/
theorem read_text_of_graph? (acts : List Act) (i : ℕ) (g : Graph)
    (hg : (draw acts).graph? i = some g) (settings : List (String × String))
    (h : g.Readable settings) :
    ∃ d, Reader.read g.text = some d ∧ Reader.Describes restored g settings d ∧
      ((∀ v ∈ g.values, ¬ HasOddRun v ∧ ¬ HasContinuation v) →
        Reader.Describes id g settings d) := by
  have hd := Reader.describes_written (ordered_of_graph? hg) settings
  exact ⟨_, Reader.read_text (isUid_of_graph? hg) h, hd, hd.exact⟩

/-- A drawing with a body, both kinds of label, quotes, odd runs of backslashes, also before a line
feed, and ports. -/
theorem read_text_of_sample :
    ∃ acts g settings, (draw acts).graph? 0 = some g ∧ g.nodes.length = 2 ∧ g.edges.length = 2 ∧
      g.Readable settings ∧
      ∃ d, Reader.read g.text = some d ∧ Reader.Describes restored g settings d := by
  let acts : List Act :=
    [.newGraph "A" "ranksep=0.3\nnodesep=-1" "" [("shape", "box")] [],
     .newNode 0 "say \"hi\" in C:\\" "" [("tooltip", "a\\\nb")], .newNode 0 "" "<I>B</I>" [],
     .setPort 0 "n", .addEdge 0 0 1 [("headport", "s")], .addEdge 0 0 1 []]
  let g : Graph :=
    { title := "A", uid := "a", body := "ranksep=0.3\nnodesep=-1"
      nodeDefaults := ⟨[("shape", "box")]⟩
      nodes :=
        [⟨0, ⟨[("label", "say \"hi\" in C:\\"), ("tooltip", "a\\\nb")]⟩, "n", ""⟩,
         ⟨1, ⟨[]⟩, "", "<I>B</I>"⟩]
      edges := [⟨⟨0, "n"⟩, ⟨1, ""⟩, ⟨[("headport", "s")]⟩⟩, ⟨⟨0, "n"⟩, ⟨1, ""⟩, ⟨[]⟩⟩] }
  have hg : (draw acts).graph? 0 = some g := by decide +kernel
  have h : g.Readable [("ranksep", "0.3"), ("nodesep", "-1")] :=
    ⟨by decide, by decide, by decide, by decide, by decide, by decide,
      ⟨Or.inr (by decide), by decide, by decide⟩⟩
  obtain ⟨d, hread, hd, -⟩ := read_text_of_graph? acts 0 g hg _ h
  exact ⟨acts, g, _, hg, rfl, rfl, h, d, hread, hd⟩

/-! ### What no reader can do -/

/-- A graph of one node with a label. -/
def labelled (label : String) : Graph :=
  { title := "a", uid := "a", nodes := [{ id := 0, attrs := ⟨[("label", label)]⟩ }] }

theorem readable_labelled (label : String) : (labelled label).Readable [] where
  uid := by
    have h : Reader.isReserved "a".toList = false := by decide
    exact h
  nodeDefaults e he := by cases he
  edgeDefaults e he := by cases he
  nodes n hn e he := by
    have h : Reader.isName "label".toList = true := by decide
    rw [List.mem_singleton.1 hn] at he
    rw [List.mem_singleton.1 he]
    exact h
  richLabels n hn := by
    rw [List.mem_singleton.1 hn]
    rfl
  edges e he := by cases he
  body := ⟨Or.inl rfl, by simp, by simp⟩

/-- Behind the defaults stands the node, with its label. -/
theorem Reader.Describes.label_eq {label : String} {d : Reader.Digraph}
    (h : Reader.Describes id (labelled label) [] d) :
    ∃ cs, d.statements[2]? = some (.vertex (nodeName 0) cs) ∧
      cs.lookup "label" = some (.plain label) := by
  obtain ⟨-, nd, ed, vertices, arrows, hs, -, -, hv, -⟩ := h
  obtain ⟨s, rest, ⟨cs, rfl, -, hcs⟩, -, rfl⟩ := List.forall₂_cons_left_iff.1 hv
  refine ⟨cs, ?_, hcs "label"⟩
  rw [hs]
  rfl

/-- No reader whatsoever gives back every value unchanged: a value that ends in an odd run of
backslashes is written like the one with a longer run, and a stray byte like U+FFFD. Nor can any text
without quotes, angle brackets and braces stand for a value in the body, since it may open a comment
or be two words, nor can a keyword stand for the name of an attribute or of a setting. -/
theorem exact_values_are_lost :
    (¬ ∃ reader : String → Option Reader.Digraph, ∀ acts i g settings,
      (draw acts).graph? i = some g → g.Readable settings →
      ∃ d, reader g.text = some d ∧ Reader.Describes id g settings d) ∧
    quoteValue ⟨[.stray 0xFF]⟩ = quoteValue "\uFFFD" ∧
    (∀ body ∈ ["a=/*\n", "a=b.c\n", "a=node\n", "strict=1\n"], ∃ g,
      (draw [.newGraph "a" body "" [] []]).graph? 0 = some g ∧ g.body = body ∧
        Reader.read g.text = none) ∧
    ∃ g, (draw [.newGraph "a" "" "" [("node", "x")] []]).graph? 0 = some g ∧
      g.nodeDefaults = ⟨[("node", "x")]⟩ ∧ Reader.read g.text = none := by
  refine ⟨?_, by decide +kernel, fun body hbody => ?_, ?_⟩
  · rintro ⟨reader, hr⟩
    have hread : ∀ label, (draw [.newGraph "a" "" "" [] [], .newNode 0 label "" []]).graph? 0 =
          some (labelled label) →
        ∃ d, reader (labelled label).text = some d ∧ Reader.Describes id (labelled label) [] d :=
      fun label hg => hr _ 0 _ [] hg (readable_labelled label)
    obtain ⟨d, hd, h⟩ := hread "C:\\" (by decide +kernel)
    obtain ⟨d', hd', h'⟩ := hread "C:\\\\" (by decide +kernel)
    -- one backslash and two are written alike, so the reader gives the same for both labels
    have htext : (labelled "C:\\").text = (labelled "C:\\\\").text := by decide +kernel
    rw [htext, hd', Option.some.injEq] at hd
    subst hd
    obtain ⟨cs, hcs, hlabel⟩ := h.label_eq
    obtain ⟨cs', hcs', hlabel'⟩ := h'.label_eq
    rw [hcs, Option.some.injEq, Reader.Statement.vertex.injEq] at hcs'
    rw [hcs'.2, hlabel', Option.some.injEq, Reader.Value.plain.injEq] at hlabel
    revert hlabel
    decide
  · refine ⟨{ title := "a", uid := "a", body := body }, ?_⟩
    simp only [List.mem_cons, List.not_mem_nil, or_false] at hbody
    rcases hbody with rfl | rfl | rfl | rfl <;> decide +kernel
  · refine ⟨{ title := "a", uid := "a", nodeDefaults := ⟨[("node", "x")]⟩ }, ?_⟩
    decide +kernel

end Dot
end ApiDiagrams
