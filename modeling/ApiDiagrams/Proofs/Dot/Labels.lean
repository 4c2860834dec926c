import ApiDiagrams.Proofs.Dot.RoundTrip

/-!
# The label of a node

A plain label is one of the attributes of a node and an HTML-like one is not, so writing attributes
can put a plain label beside an HTML-like one. What a node shows is decided by three rules: the last
label that was set counts, an attribute `label` that is written afterwards replaces a plain label, and
nothing that is written touches an HTML-like label. A node is written with what it shows.

* `Node.Edit`, `Node.edits`: setting labels and writing attributes;
* `Shown`, `Shown.after`: what a node shows, and the rules;
* `Clause`, `Node.clauseList`: the statement of a node, clause by clause;
* `Reader.lexes_html_iff`: a text between angle brackets is a token if they match;
* `ShowsOneLabel`, `one_label_of_newNode`: every node that is accepted, after any edits.
-/

namespace ApiDiagrams
namespace Dot

/-! ### What a node shows -/

/-- The name of the attribute that a change is about. -/
def Attrs.Write.key : Attrs.Write → String
  | .set key _ => key
  | .erase key => key

/-- Setting a label of either kind, or writing an attribute. -/
inductive Node.Edit
  | label (text : String)
  | richLabel (text : String)
  | write (w : Attrs.Write)

/-- A label of either kind is set. -/
def Node.Edit.SetsLabel : Node.Edit → Prop
  | .write _ => False
  | _ => True

/-- The attribute `label` is written. -/
def Node.Edit.WritesLabel : Node.Edit → Prop
  | .write w => w.key = "label"
  | _ => False

/-- The label that a node shows, which is not empty. -/
inductive Shown
  | nothing
  | plain (text : String)
  | rich (text : String)

namespace Shown

def ofPlain (text : String) : Shown := if text = "" then .nothing else .plain text

def ofRich (text : String) : Shown := if text = "" then .nothing else .rich text

def plainText : Shown → String
  | .plain text => text
  | _ => ""

def richText : Shown → String
  | .rich text => text
  | _ => ""

/-- What is shown after an edit. Setting a label replaces what was shown, an empty one by nothing;
writing the attribute `label` does so unless the label shown is HTML-like. -/
def after : Shown → Node.Edit → Shown
  | _, .label text => ofPlain text
  | _, .richLabel text => ofRich text
  | .rich text, .write _ => .rich text
  | s, .write (.set key value) => if key = "label" then ofPlain value else s
  | s, .write (.erase key) => if key = "label" then .nothing else s

@[simp] theorem plainText_ofPlain (text : String) : (ofPlain text).plainText = text := by
  unfold ofPlain
  split_ifs with h
  · exact h.symm
  · rfl

@[simp] theorem richText_ofPlain (text : String) : (ofPlain text).richText = "" := by
  unfold ofPlain
  split_ifs <;> rfl

@[simp] theorem plainText_ofRich (text : String) : (ofRich text).plainText = "" := by
  unfold ofRich
  split_ifs <;> rfl

@[simp] theorem richText_ofRich (text : String) : (ofRich text).richText = text := by
  unfold ofRich
  split_ifs with h
  · exact h.symm
  · rfl

/-- One label at most is shown. -/
theorem plainText_or_richText (s : Shown) : s.plainText = "" ∨ s.richText = "" := by
  cases s with
  | nothing => exact .inl rfl
  | plain text => exact .inr rfl
  | rich text => exact .inl rfl

theorem after_of_not_writesLabel (s : Shown) {e : Node.Edit} (h : ¬ e.SetsLabel)
    (hw : ¬ e.WritesLabel) : s.after e = s := by
  cases e with
  | label => exact absurd trivial h
  | richLabel => exact absurd trivial h
  | write w =>
    cases s with
    | rich => rfl
    | nothing | plain => cases w <;> exact if_neg hw

/-- A label that nothing replaces is shown to the end. -/
theorem foldl_after_of_not_writesLabel (s : Shown) {es : List Node.Edit}
    (h : ∀ e ∈ es, ¬ e.SetsLabel ∧ ¬ e.WritesLabel) : es.foldl after s = s := by
  induction es generalizing s with
  | nil => rfl
  | cons e es ih =>
    obtain ⟨hset, hwrite⟩ := h e List.mem_cons_self
    rw [List.foldl_cons, s.after_of_not_writesLabel hset hwrite]
    exact ih s fun x hx => h x (List.mem_cons_of_mem _ hx)

/-- Nothing that is written replaces an HTML-like label. -/
theorem foldl_after_rich (text : String) {es : List Node.Edit} (h : ∀ e ∈ es, ¬ e.SetsLabel) :
    es.foldl after (.rich text) = .rich text := by
  induction es with
  | nil => rfl
  | cons e es ih =>
    have hkept : after (.rich text) e = .rich text := by
      cases e with
      | label => exact absurd trivial (h _ List.mem_cons_self)
      | richLabel => exact absurd trivial (h _ List.mem_cons_self)
      | write w => rfl
    rw [List.foldl_cons, hkept]
    exact ih fun x hx => h x (List.mem_cons_of_mem _ hx)

end Shown

namespace Node

/-- The node after an edit. -/
def edit (n : Node) : Edit → Node
  | .label text => n.setLabel text
  | .richLabel text => n.setRichLabel text
  | .write w => { n with attrs := n.attrs.write w }

/-- The node after a sequence of edits. -/
def edits (n : Node) (es : List Edit) : Node := es.foldl edit n

theorem edits_cons (n : Node) (e : Edit) (es : List Edit) :
    n.edits (e :: es) = (n.edit e).edits es := rfl

/-- The label that the node shows. -/
def shown (n : Node) : Shown :=
  if n.richLabel ≠ "" then .rich n.richLabel else .ofPlain ((n.attrs.get? "label").getD "")

theorem label_eq (n : Node) : n.label = n.shown.plainText := by
  unfold label shown
  split_ifs with h
  · rfl
  · exact (Shown.plainText_ofPlain _).symm

theorem richLabel_eq (n : Node) : n.richLabel = n.shown.richText := by
  unfold shown
  split_ifs with h
  · rfl
  · simpa using h

theorem shown_setLabel (n : Node) (text : String) : (n.setLabel text).shown = .ofPlain text := by
  simp [setLabel, shown, Attrs.get?_insert]

theorem shown_setRichLabel (n : Node) (text : String) :
    (n.setRichLabel text).shown = .ofRich text := by
  by_cases h : text = ""
  · simp [setRichLabel, shown, Attrs.get?_erase, Shown.ofRich, Shown.ofPlain, h]
  · simp [setRichLabel, shown, Shown.ofRich, h]

theorem get?_write (a : Attrs) (w : Attrs.Write) (h : w.key ≠ "label") :
    (a.write w).get? "label" = a.get? "label" := by
  cases w with
  | set key value => exact (Attrs.get?_insert _ _ _ _).trans (if_neg (Ne.symm h))
  | erase key => exact (Attrs.get?_erase _ _ _).trans (if_neg (Ne.symm h))

/-- One edit changes what is shown by the rules. -/
theorem shown_edit (n : Node) (e : Edit) : (n.edit e).shown = n.shown.after e := by
  cases e with
  | label text => exact n.shown_setLabel text
  | richLabel text => exact n.shown_setRichLabel text
  | write w =>
    by_cases hrich : n.richLabel = ""
    · -- the attribute is what is shown, or nothing is
      have hshown : n.shown = .ofPlain ((n.attrs.get? "label").getD "") := by simp [shown, hrich]
      have hedit : (n.edit (.write w)).shown =
          .ofPlain (((n.attrs.write w).get? "label").getD "") := by simp [edit, shown, hrich]
      have hplain : ∀ text, ∀ w : Attrs.Write, (Shown.ofPlain text).after (.write w) =
          match w with
          | .set key value => if key = "label" then .ofPlain value else .ofPlain text
          | .erase key => if key = "label" then .nothing else .ofPlain text := by
        intro text w
        unfold Shown.ofPlain
        split_ifs <;> cases w <;> rfl
      rw [hedit, hshown, hplain]
      by_cases hkey : w.key = "label"
      · cases w with
        | set key value =>
          obtain rfl : key = "label" := hkey
          simp [Attrs.write, Attrs.get?_insert]
        | erase key =>
          obtain rfl : key = "label" := hkey
          simp [Attrs.write, Attrs.get?_erase, Shown.ofPlain]
      · rw [get?_write _ _ hkey]
        cases w <;> exact (if_neg hkey).symm
    · simp [edit, shown, hrich, Shown.after]

/-- A sequence of edits changes what is shown by the rules. -/
theorem shown_edits (n : Node) (es : List Edit) :
    (n.edits es).shown = es.foldl Shown.after n.shown := by
  induction es generalizing n with
  | nil => rfl
  | cons e es ih => rw [edits_cons, ih, shown_edit, List.foldl_cons]

end Node

/-! ### What a node is written with -/

/-- A clause of the statement of a node: an attribute, or the HTML-like label. -/
inductive Clause
  | attribute (key value : String)
  | richLabel (text : String)

namespace Clause

def key : Clause → String
  | .attribute key _ => key
  | .richLabel _ => "label"

/-- The clause as it is written. -/
def text : Clause → String
  | .attribute key value => key ++ "=\"" ++ quoteValue value ++ "\""
  | .richLabel text => "label=<" ++ text ++ ">"

/-- The clauses of some attributes. -/
def ofAttrs (a : Attrs) : List Clause := a.entries.map fun e => .attribute e.1 e.2

theorem map_key_ofAttrs (a : Attrs) : (ofAttrs a).map key = a.entries.map Prod.fst := by
  simp [ofAttrs, key, Function.comp_def]

theorem intercalate_ofAttrs (a : Attrs) :
    String.intercalate "," ((ofAttrs a).map text) = a.format := by
  rw [ofAttrs, List.map_map]
  rfl

theorem attribute_mem_ofAttrs_iff {a : Attrs} (h : a.Ordered) {key value : String} :
    .attribute key value ∈ ofAttrs a ↔ a.get? key = some value := by
  rw [← Attrs.mem_entries_iff h]
  simp [ofAttrs]

theorem richLabel_not_mem_ofAttrs (a : Attrs) (text : String) : .richLabel text ∉ ofAttrs a := by
  simp [ofAttrs]

end Clause

namespace Node

/-- The clauses that a node is written with. -/
def clauseList (n : Node) : List Clause :=
  if n.richLabel ≠ "" then .richLabel n.richLabel :: Clause.ofAttrs (n.attrs.erase "label")
  else Clause.ofAttrs n.attrs

theorem clauses_eq_intercalate (n : Node) :
    n.clauses = String.intercalate "," (n.clauseList.map Clause.text) := by
  unfold clauses clauseList
  split_ifs with hrich
  · rw [List.map_cons]
    dsimp only
    have hempty := Reader.format_eq_empty_iff (n.attrs.erase "label")
    rw [Reader.shown, List.map_eq_nil_iff] at hempty
    by_cases hnil : (n.attrs.erase "label").entries = []
    · rw [if_pos (hempty.2 hnil), Clause.ofAttrs, hnil]
      simp [Clause.text]
    · obtain ⟨e, entries, hcons⟩ := List.exists_cons_of_ne_nil hnil
      rw [if_neg (mt hempty.1 hnil), ← Clause.intercalate_ofAttrs, Clause.ofAttrs, hcons,
        List.map_cons, List.map_cons, String.intercalate_cons_cons, ← String.append_assoc]
      rfl
  · exact (Clause.intercalate_ofAttrs _).symm

variable {n : Node}

/-- No two clauses are about the same attribute. -/
theorem nodup_clauseList (h : n.attrs.Ordered) : (n.clauseList.map Clause.key).Nodup := by
  unfold clauseList
  split_ifs with hrich
  · rw [List.map_cons, Clause.map_key_ofAttrs]
    refine List.nodup_cons.2 ⟨?_, (h.erase _).nodup⟩
    simp [Attrs.erase, Clause.key]
  · rw [Clause.map_key_ofAttrs]
    exact h.nodup

theorem richLabel_mem_clauseList_iff {text : String} :
    .richLabel text ∈ n.clauseList ↔ text = n.richLabel ∧ text ≠ "" := by
  unfold clauseList
  split_ifs with hrich
  · simp only [List.mem_cons, Clause.richLabel.injEq, Clause.richLabel_not_mem_ofAttrs, or_false]
    exact ⟨fun h => ⟨h, h ▸ hrich⟩, And.left⟩
  · refine iff_of_false (Clause.richLabel_not_mem_ofAttrs _ _) ?_
    rintro ⟨rfl, hne⟩
    exact hrich hne

theorem label_mem_clauseList_iff (h : n.attrs.Ordered) {value : String} :
    .attribute "label" value ∈ n.clauseList ↔
      n.richLabel = "" ∧ n.attrs.get? "label" = some value := by
  unfold clauseList
  split_ifs with hrich
  · rw [List.mem_cons, Clause.attribute_mem_ofAttrs_iff (h.erase _), Attrs.get?_erase]
    simp [hrich]
  · rw [Clause.attribute_mem_ofAttrs_iff h]
    simp [not_not.1 hrich]

end Node

/-! ### What is read of a node -/

namespace Reader

/-- The angle brackets of an HTML-like token match. -/
def Token.IsBalanced : Token → Prop
  | .html text => balancedFrom 0 text = true
  | _ => True

/-- What has been read of an HTML-like token has as many brackets open as the machine counts. -/
def Mode.IsBalanced : Mode → Prop
  | .html depth read => ∀ t, balancedFrom depth t = true → balancedFrom 0 (read.reverse ++ t) = true
  | _ => True

theorem isBalanced_start {c : Char} {r : List Token × Mode} (h : start c = some r) :
    (∀ t ∈ r.1, t.IsBalanced) ∧ r.2.IsBalanced := by
  unfold start at h
  split_ifs at h <;> cases h <;> simp [Token.IsBalanced, Mode.IsBalanced]

theorem isBalanced_step {m : Mode} (hm : m.IsBalanced) {c : Char} {r : List Token × Mode}
    (h : step m c = some r) : (∀ t ∈ r.1, t.IsBalanced) ∧ r.2.IsBalanced := by
  cases m with
  | between => exact isBalanced_start h
  | word read =>
    simp only [step] at h
    split_ifs at h with hbare
    · cases h
      exact ⟨List.forall_mem_nil _, trivial⟩
    · obtain ⟨w, hw, h⟩ := Option.bind_eq_some_iff.1 h
      obtain ⟨r, hr, rfl⟩ := Option.map_eq_some_iff.1 h
      obtain ⟨htokens, hmode⟩ := isBalanced_start hr
      refine ⟨List.forall_mem_cons.2 ⟨?_, htokens⟩, hmode⟩
      unfold word? at hw
      split_ifs at hw
      cases hw
      trivial
  | html depth read =>
    simp only [step] at h
    by_cases hc : c = '>'
    · subst hc
      cases depth with
      | zero =>
        cases h
        have hend : balancedFrom 0 (read.reverse ++ []) = true := hm [] rfl
        rw [List.append_nil] at hend
        exact ⟨List.forall_mem_singleton.2 hend, trivial⟩
      | succ depth =>
        cases h
        refine ⟨List.forall_mem_nil _, fun t ht => ?_⟩
        rw [List.reverse_cons, List.append_assoc]
        exact hm _ (by simpa [balancedFrom] using ht)
    · rw [if_neg hc] at h
      cases h
      refine ⟨List.forall_mem_nil _, fun t ht => ?_⟩
      rw [List.reverse_cons, List.append_assoc]
      refine hm _ ?_
      rw [balancedFrom.eq_def]
      simpa [hc] using ht
  | hyphen | quoted | escaped | slash | comment | star =>
    simp only [step] at h
    split_ifs at h <;> cases h <;> simp [Token.IsBalanced, Mode.IsBalanced]

theorem isBalanced_run {text : List Char} {m : Mode} (hm : m.IsBalanced) {r : List Token × Mode}
    (h : run m text = some r) : ∀ t ∈ r.1, t.IsBalanced := by
  induction text generalizing m r with
  | nil =>
    cases h
    exact nofun
  | cons c rest ih =>
    rw [run_cons] at h
    obtain ⟨s, hs, h⟩ := Option.bind_eq_some_iff.1 h
    obtain ⟨q, hq, rfl⟩ := Option.map_eq_some_iff.1 h
    obtain ⟨htokens, hmode⟩ := isBalanced_step hm hs
    exact fun t ht => (List.mem_append.1 ht).elim (htokens t) (ih hmode hq t)

/-- A text between angle brackets is one token exactly if its own brackets match. -/
theorem lexes_html_iff {t : List Char} :
    Lexes ('<' :: (t ++ ['>'])) [.html t] ↔ balancedFrom 0 t = true :=
  ⟨fun h => isBalanced_run (m := .between) trivial h _ List.mem_cons_self, lexes_html⟩

/-- A node that stands alone in a graph is read if no attribute is named by a keyword, and else the
graph is refused. -/
theorem read_node {n : Node} (hk : WordKeys n.attrs)
    (hb : balancedFrom 0 n.richLabel.toList = true) :
    read ("digraph g \x7b\n" ++ (n.statement ++ "\x7d\n")) =
      if isNamed (nodeClauses n) then some ⟨"g", [.vertex (nodeName n.id) (nodeClauses n)]⟩
      else none := by
  have hheader : "digraph g \x7b\n" = "digraph " ++ "g" ++ " \x7b\n" := by decide
  have hline := lexes_statement hk hb
  rw [hheader]
  cases hnamed : isNamed (nodeClauses n) with
  | true =>
    have hspells := spells_vertex (isReserved_nodeName n.id) hnamed
    rw [String.ofList_toList] at hspells
    exact read_of_says (by decide) (by decide) (says_line hline hspells) rfl
  | false =>
    have hne : nodeClauses n ≠ [] := by
      intro hnil
      rw [hnil] at hnamed
      cases hnamed
    have hclose : Lexes "\x7d\n".toList [.mark '\x7d'] := by decide
    have hid : isIdentifier "g".toList = true := by decide
    -- the clauses are refused, and with them their statement
    have hrefused := statement?_bracketed (nodeName n.id).toList (nodeClauses n) [.mark '\x7d']
    rw [hnamed, if_neg Bool.false_ne_true] at hrefused
    have hbracket : bracketTokens (nodeClauses n) ++ [.mark '\x7d'] =
        .mark '[' :: (clauseTokens (nodeClauses n) ++ [.mark ']', .mark '\x7d']) := by
      simp [bracketTokens, hne]
    rw [read_header hid, String.toList_append, tokens?_of_lexes (hline.append hclose),
      Option.bind_some, List.cons_append, hbracket, statements_of_refused (by simp) hrefused]
    simp

theorem html_mem_nodeClauses_iff {n : Node} {text : String} :
    ("label", .html text) ∈ nodeClauses n ↔ text = n.richLabel ∧ text ≠ "" := by
  have hplain : ∀ a : Attrs, ("label", Value.html text) ∉ shown a.entries := by
    intro a
    simp [shown]
  unfold nodeClauses
  split_ifs with hrich
  · simp only [List.mem_cons, Prod.mk.injEq, true_and, Value.html.injEq, hplain, or_false]
    exact ⟨fun heq => ⟨heq, heq ▸ hrich⟩, And.left⟩
  · refine iff_of_false (hplain _) ?_
    rintro ⟨rfl, hne⟩
    exact hrich hne

end Reader

/-! ### Nodes that are made and edited -/

/-- The attribute that an edit writes is named by an identifier. -/
def Node.Edit.WordNamed : Node.Edit → Prop
  | .write (.set key _) => Reader.isIdentifier key.toList = true
  | _ => True

namespace Node

theorem id_edits (n : Node) (es : List Edit) : (n.edits es).id = n.id := by
  induction es generalizing n with
  | nil => rfl
  | cons e es ih =>
    rw [edits_cons, ih]
    cases e <;> rfl

theorem ordered_edits {n : Node} (h : n.attrs.Ordered) (es : List Edit) :
    (n.edits es).attrs.Ordered := by
  induction es generalizing n with
  | nil => exact h
  | cons e es ih =>
    refine ih (n := n.edit e) ?_
    cases e with
    | label => exact h.insert _ _
    | richLabel => exact h.erase _
    | write w => exact h.write w

theorem wordKeys_edits {n : Node} (h : Reader.WordKeys n.attrs) {es : List Edit}
    (hes : ∀ e ∈ es, e.WordNamed) : Reader.WordKeys (n.edits es).attrs := by
  have hword : Reader.isIdentifier "label".toList = true := by decide
  induction es generalizing n with
  | nil => exact h
  | cons e es ih =>
    refine ih (n := n.edit e) ?_ fun x hx => hes x (List.mem_cons_of_mem _ hx)
    have he := hes e List.mem_cons_self
    cases e with
    | label => exact h.insert hword _
    | richLabel => exact h.erase _
    | write w =>
      cases w with
      | set key value => exact h.insert he _
      | erase key => exact h.erase _

end Node

namespace NodeSpec

/-- The label that a description asks for: the one that is not empty, or else the attribute. -/
def shown (spec : NodeSpec) : Shown :=
  if spec.richLabel ≠ "" then .rich spec.richLabel
  else if spec.label ≠ "" then .plain spec.label
  else .ofPlain ((spec.attrs.get? "label").getD "")

/-- The labels that are set when a node is made from a description. -/
def edits (spec : NodeSpec) : List Node.Edit :=
  (if spec.label ≠ "" then [.label spec.label] else []) ++
    if spec.richLabel ≠ "" then [.richLabel spec.richLabel] else []

variable {spec : NodeSpec}

theorem wordNamed_of_mem_edits : ∀ e ∈ spec.edits, e.WordNamed := by
  unfold edits
  split_ifs <;> simp [Node.Edit.WordNamed]

/-- A node that is made has the attributes of the description, edited. -/
theorem toNode_eq_edits (spec : NodeSpec) (h : ¬ (spec.label ≠ "" ∧ spec.richLabel ≠ ""))
    (id : ℕ) : spec.toNode id = .ok (Node.edits { id, attrs := spec.attrs } spec.edits) := by
  rw [toNode, if_neg h, edits]
  split_ifs <;> rfl

theorem eq_of_toNode {id : ℕ} {n : Node} (h : spec.toNode id = .ok n) :
    n = Node.edits { id, attrs := spec.attrs } spec.edits ∧
      ¬ (spec.label ≠ "" ∧ spec.richLabel ≠ "") := by
  by_cases hboth : spec.label ≠ "" ∧ spec.richLabel ≠ ""
  · rw [toNode_of_both hboth] at h
    cases h
  · rw [spec.toNode_eq_edits hboth] at h
    exact ⟨(Except.ok.inj h).symm, hboth⟩

theorem shown_of_toNode {id : ℕ} {n : Node} (h : spec.toNode id = .ok n) :
    n.shown = spec.shown := by
  obtain ⟨rfl, hboth⟩ := eq_of_toNode h
  rw [Node.shown_edits, edits, shown]
  by_cases hrich : spec.richLabel = ""
  · by_cases hlabel : spec.label = ""
    · simp [hrich, hlabel, Node.shown]
    · simp [hrich, hlabel, Shown.after, Shown.ofPlain]
  · simp [hrich, Shown.after, Shown.ofRich]

end NodeSpec

/-- What holds of the label of a node that was made from a description, after any edits. -/
structure ShowsOneLabel (spec : NodeSpec) (n : Node) : Prop where
  label : ∀ es, (n.edits es).label = (es.foldl Shown.after spec.shown).plainText
  richLabel : ∀ es, (n.edits es).richLabel = (es.foldl Shown.after spec.shown).richText
  exclusive : ∀ es, (n.edits es).label = "" ∨ (n.edits es).richLabel = ""
  /-- A plain label that is set is shown until a label is set or the attribute is written. -/
  last_label : ∀ before text after, text ≠ "" →
    (∀ e ∈ after, ¬ e.SetsLabel ∧ ¬ e.WritesLabel) →
    (n.edits (before ++ .label text :: after)).label = text
  /-- An HTML-like label that is set is shown until a label is set. -/
  last_richLabel : ∀ before text after, text ≠ "" → (∀ e ∈ after, ¬ e.SetsLabel) →
    (n.edits (before ++ .richLabel text :: after)).richLabel = text
  /-- One clause at most is about the label: the HTML-like label if there is one, and else the
  attribute if there is one. -/
  written : ∀ es, ∃ cs : List Clause,
    (n.edits es).statement =
      nodeName n.id ++ bracketed (String.intercalate "," (cs.map Clause.text)) ++ "\n" ∧
    (cs.map Clause.key).count "label" ≤ 1 ∧
    (∀ text, .richLabel text ∈ cs ↔ text = (n.edits es).richLabel ∧ text ≠ "") ∧
    ∀ value, .attribute "label" value ∈ cs ↔
      (n.edits es).richLabel = "" ∧ (n.edits es).attrs.get? "label" = some value
  /-- One such clause at most is read, where an HTML-like label can be read at all. The statement is
  refused if a keyword names an attribute. -/
  read : ∀ es, Reader.WordKeys spec.attrs → (∀ e ∈ es, e.WordNamed) →
    Reader.Lexes ('<' :: ((n.edits es).richLabel.toList ++ ['>']))
      [.html (n.edits es).richLabel.toList] →
    ∃ cs, Reader.read ("digraph g \x7b\n" ++ ((n.edits es).statement ++ "\x7d\n")) =
        (if Reader.isNamed cs then some ⟨"g", [.vertex (nodeName n.id) cs]⟩ else none) ∧
      (cs.map Prod.fst).count "label" ≤ 1 ∧
      ∀ text, ("label", .html text) ∈ cs ↔ text = (n.edits es).richLabel ∧ text ≠ ""

theorem showsOneLabel_of_toNode {spec : NodeSpec} {id : ℕ} {n : Node} (hspec : spec.attrs.Ordered)
    (h : spec.toNode id = .ok n) : ShowsOneLabel spec n := by
  have hshown : ∀ es, (n.edits es).shown = es.foldl Shown.after spec.shown := fun es => by
    rw [n.shown_edits, NodeSpec.shown_of_toNode h]
  have hlabel : ∀ es, (n.edits es).label = (es.foldl Shown.after spec.shown).plainText :=
    fun es => by rw [Node.label_eq, hshown]
  have hrich : ∀ es, (n.edits es).richLabel = (es.foldl Shown.after spec.shown).richText :=
    fun es => by rw [Node.richLabel_eq, hshown]
  obtain ⟨hmade, -⟩ := NodeSpec.eq_of_toNode h
  have hordered : ∀ es, (n.edits es).attrs.Ordered :=
    Node.ordered_edits (hmade ▸ Node.ordered_edits hspec _)
  refine ⟨hlabel, hrich, fun es => ?_, fun before text after hne hafter => ?_,
    fun before text after hne hafter => ?_, fun es => ?_, fun es hk hes hlexes => ?_⟩
  · rw [hlabel, hrich]
    exact Shown.plainText_or_richText _
  · rw [hlabel, List.foldl_append, List.foldl_cons, Shown.foldl_after_of_not_writesLabel _ hafter]
    exact Shown.plainText_ofPlain text
  · have hset : ∀ s : Shown, s.after (.richLabel text) = .rich text := fun s => by
      rw [Shown.after, Shown.ofRich, if_neg hne]
    rw [hrich, List.foldl_append, List.foldl_cons, hset, Shown.foldl_after_rich text hafter]
    rfl
  · refine ⟨(n.edits es).clauseList, ?_, List.nodup_iff_count_le_one.1 ?_ _,
      fun text => Node.richLabel_mem_clauseList_iff,
      fun value => Node.label_mem_clauseList_iff (hordered es)⟩
    · rw [Node.statement, Node.clauses_eq_intercalate, n.id_edits]
    · exact Node.nodup_clauseList (hordered es)
  · have hmadeKeys : Reader.WordKeys n.attrs :=
      hmade ▸ Node.wordKeys_edits hk NodeSpec.wordNamed_of_mem_edits
    have hkeys := Node.wordKeys_edits hmadeKeys hes
    refine ⟨Reader.nodeClauses (n.edits es), ?_, List.nodup_iff_count_le_one.1 ?_ _,
      fun text => Reader.html_mem_nodeClauses_iff⟩
    · rw [Reader.read_node hkeys (Reader.lexes_html_iff.1 hlexes), n.id_edits]
    · exact (Reader.gives_nodeClauses (hordered es)).1

theorem Context.newNode_eq (c : Context) (g : Graph) (spec : NodeSpec) :
    c.newNode g spec = (spec.toNode c.nextId).map fun n =>
      (n, { g with nodes := g.nodes ++ [n] }, { c with nextId := c.nextId + 1 }) := by
  unfold Context.newNode
  cases spec.toNode c.nextId <;> rfl

/-- **A node never shows two labels.** A node is refused exactly if its description has both kinds of
label, and a node that is accepted shows one label at most whatever is done to it. -/
theorem one_label_of_newNode (c : Context) (g : Graph) (label richLabel : String)
    (attrs : List (String × String)) :
    ((∃ f, c.newNode g ⟨label, richLabel, .ofList attrs⟩ = .error f) ↔
      label ≠ "" ∧ richLabel ≠ "") ∧
    ∀ n g' c', c.newNode g ⟨label, richLabel, .ofList attrs⟩ = .ok (n, g', c') →
      ShowsOneLabel ⟨label, richLabel, .ofList attrs⟩ n := by
  rw [c.newNode_eq]
  refine ⟨⟨?_, fun hboth => ?_⟩, ?_⟩
  · rintro ⟨f, hf⟩
    by_contra hboth
    rw [NodeSpec.toNode_eq ⟨label, richLabel, .ofList attrs⟩ hboth] at hf
    cases hf
  · rw [NodeSpec.toNode_of_both hboth]
    exact ⟨_, rfl⟩
  · intro n g' c' h
    cases hn : NodeSpec.toNode ⟨label, richLabel, .ofList attrs⟩ c.nextId with
    | error f =>
      rw [hn] at h
      cases h
    | ok m =>
      rw [hn] at h
      cases h
      exact showsOneLabel_of_toNode (Attrs.ordered_ofList attrs) hn

/-- A plain label that is written beside an HTML-like one is not shown and does not get into the
text. -/
theorem one_label_of_written_attribute :
    ∃ n g c, Context.newNode {} { title := "a", uid := "a" }
        ⟨"", "<I>A</I>", .ofList [("label", "x"), ("tooltip", "t")]⟩ = .ok (n, g, c) ∧
      let m := n.edits [.label "y", .richLabel "<I>B</I>", .write (.set "label" "z")]
      m.attrs.get? "label" = some "z" ∧ m.label = "" ∧ m.richLabel = "<I>B</I>" ∧
        m.statement = "node0 [label=<<I>B</I>>,tooltip=\"t\"]\n" := by
  let n : Node := { id := 0, attrs := ⟨[("tooltip", "t")]⟩, richLabel := "<I>A</I>" }
  have hnew : Context.newNode {} { title := "a", uid := "a" }
      ⟨"", "<I>A</I>", .ofList [("label", "x"), ("tooltip", "t")]⟩ =
        .ok (n, { title := "a", uid := "a", nodes := [n] }, { nextId := 1 }) := by decide +kernel
  obtain ⟨-, hone⟩ := one_label_of_newNode {} { title := "a", uid := "a" } "" "<I>A</I>"
    [("label", "x"), ("tooltip", "t")]
  have hshows := hone _ _ _ hnew
  have hrich := hshows.last_richLabel [.label "y"] "<I>B</I>" [.write (.set "label" "z")]
    (by decide) (by simp [Node.Edit.SetsLabel])
  refine ⟨n, _, _, hnew, by decide +kernel, (hshows.exclusive _).resolve_right fun hempty => ?_,
    hrich, by decide +kernel⟩
  exact absurd (hrich.symm.trans hempty) (by decide)

end Dot
end ApiDiagrams
