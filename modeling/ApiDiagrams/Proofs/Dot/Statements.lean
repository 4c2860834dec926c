import ApiDiagrams.Proofs.Dot.Scanning
import ApiDiagrams.Proofs.Text.Ascii

/-!
# The statements of written graphs

The lines of a written graph are statements whose tokens are read back one after the other,
whatever stands behind them.

* `Spells`: tokens and the statement that they are, before any other statement or the end;
* `Says`: a piece of text and the statements that it consists of, with `Says.append`;
* `spells_vertex`, `spells_arrow`, `spells_defaults`, `spells_setting`: the kinds of statement;
* `says_defaults`, `says_setting`: the lines that stand before the nodes;
* `read_of_says`: a graph whose lines say some statements is read as these.
-/

namespace ApiDiagrams
namespace Dot
namespace Reader

/-! ### Statements side by side -/

/-- Another statement starts here, or the graph ends. -/
def Fresh : List Token → Prop
  | .word _ :: _ => True
  | .mark c :: _ => c = '\x7d'
  | _ => False

/-- The tokens are those of the statement, whatever statement or end follows them. -/
structure Spells (ts : List Token) (s : Statement) : Prop where
  head : ∃ w us, ts = .word w :: us
  reads : ∀ rest, Fresh rest → statement? (ts ++ rest) = some (s, rest)

theorem Spells.fresh {ts : List Token} {s : Statement} (h : Spells ts s) (rest : List Token) :
    Fresh (ts ++ rest) := by
  obtain ⟨w, us, rfl⟩ := h.head
  trivial

theorem statements_of_spells {ts rest : List Token} {s : Statement} (h : Spells ts s)
    (hr : Fresh rest) : statements (ts ++ rest) = (statements rest).map (s :: ·) := by
  rw [statements]
  have hne : ts ++ rest ≠ [.mark '\x7d'] := by
    obtain ⟨w, us, rfl⟩ := h.head
    simp
  rw [if_neg hne]
  split
  · rename_i hs
    rw [h.reads rest hr] at hs
    cases hs
  · rename_i hs
    rw [h.reads rest hr] at hs
    cases hs
    rfl

theorem statements_of_refused {l : List Token} (hne : l ≠ [.mark '\x7d'])
    (h : statement? l = none) : statements l = none := by
  rw [statements, if_neg hne]
  split
  · rfl
  · rename_i hs
    rw [h] at hs
    cases hs

theorem statements_of_forall₂ {tss : List (List Token)} {ss : List Statement}
    (h : List.Forall₂ Spells tss ss) (rest : List Token) (hr : Fresh rest) :
    statements (tss.flatten ++ rest) = (statements rest).map (ss ++ ·) ∧
      Fresh (tss.flatten ++ rest) := by
  induction h with
  | nil => exact ⟨by cases hs : statements rest <;> simp [hs], hr⟩
  | cons hts hrest ih =>
    obtain ⟨heq, hfresh⟩ := ih
    rw [List.flatten_cons, List.append_assoc]
    refine ⟨?_, hts.fresh _⟩
    rw [statements_of_spells hts hfresh, heq, Option.map_map]
    rfl

/-- The text consists of the statements, up to blanks and comments. -/
def Says (text : List Char) (ss : List Statement) : Prop :=
  ∃ tss, Lexes text (List.flatten tss) ∧ List.Forall₂ Spells tss ss

theorem Says.append {a b : List Char} {ss ss' : List Statement} (ha : Says a ss)
    (hb : Says b ss') : Says (a ++ b) (ss ++ ss') := by
  obtain ⟨tss, hl, hs⟩ := ha
  obtain ⟨tss', hl', hs'⟩ := hb
  refine ⟨tss ++ tss', ?_, List.rel_append hs hs'⟩
  rw [List.flatten_append]
  exact hl.append hl'

theorem Says.append_string {a b : String} {ss ss' : List Statement} (ha : Says a.toList ss)
    (hb : Says b.toList ss') : Says (a ++ b).toList (ss ++ ss') := by
  rw [String.toList_append]
  exact ha.append hb

theorem says_nil {text : List Char} (h : Lexes text []) : Says text [] :=
  ⟨[], h, List.Forall₂.nil⟩

theorem says_line {text : List Char} {ts : List Token} {s : Statement} (hl : Lexes text ts)
    (hs : Spells ts s) : Says text [s] :=
  ⟨[ts], by simpa using hl, List.Forall₂.cons hs List.Forall₂.nil⟩

/-- Lines side by side say their statements in order. -/
theorem says_join {α : Type} {l : List α} {line : α → String} {s : α → Statement}
    (h : ∀ x ∈ l, Says (line x).toList [s x]) :
    Says (String.join (l.map line)).toList (l.map s) := by
  induction l with
  | nil => exact says_nil rfl
  | cons x l ih =>
    have ih := ih fun y hy => h y (List.mem_cons_of_mem _ hy)
    rw [List.map_cons, List.map_cons, String.join_cons]
    exact (h x List.mem_cons_self).append_string ih

/-! ### Clauses between brackets -/

/-- Every clause is about what can be named. -/
def isNamed (cs : Clauses) : Bool := cs.all fun c => isName c.1.toList

/-- Clauses between brackets are read if all of them can be named, and else are refused. -/
theorem clauses_clauseTokens (cs : Clauses) (rest : List Token) :
    clauses (clauseTokens cs ++ .mark ']' :: rest) = if isNamed cs then some (cs, rest) else none := by
  induction cs with
  | nil => rfl
  | cons c cs ih =>
    obtain ⟨k, v⟩ := c
    cases cs with
    | nil => cases hk : isName k.toList <;> simp [clauseTokens, clauses, isNamed, hk]
    | cons c cs =>
      rw [clauseTokens_cons k v (List.cons_ne_nil c cs)]
      have hnamed : isNamed ((k, v) :: c :: cs) = (isName k.toList && isNamed (c :: cs)) := rfl
      cases hk : isName k.toList with
      | false => simp [clauses, hnamed, hk]
      | true => cases hcs : isNamed (c :: cs) <;> simp [clauses, hnamed, hk, ih, hcs]

/-- The tokens of clauses between brackets; there are no brackets without clauses. -/
def bracketTokens (cs : Clauses) : List Token :=
  if cs = [] then [] else .mark '[' :: (clauseTokens cs ++ [.mark ']'])

theorem bracketedClauses_of_fresh {rest : List Token} (h : Fresh rest) :
    bracketedClauses rest = some ([], rest) := by
  match rest, h with
  | .word _ :: _, _ => rfl
  | .mark c :: _, h =>
    cases h
    rfl

theorem bracketedClauses_bracketTokens {cs : Clauses} (h : isNamed cs = true)
    {rest : List Token} (hr : Fresh rest) :
    bracketedClauses (bracketTokens cs ++ rest) = some (cs, rest) := by
  unfold bracketTokens
  split_ifs with hcs
  · subst hcs
    exact bracketedClauses_of_fresh hr
  · rw [List.cons_append, List.append_assoc]
    exact (clauses_clauseTokens cs rest).trans (if_pos h)

/-- A name that another statement or the end follows is a vertex. -/
theorem statement?_of_fresh {name : List Char} (hname : isReserved name = false)
    {rest : List Token} (h : Fresh rest) :
    statement? (.word name :: rest) = some (.vertex (String.ofList name) [], rest) := by
  match rest, h with
  | .word _ :: _, _ => simp [statement?, hname]
  | .mark c :: _, h =>
    cases h
    simp [statement?, hname]

/-- A word before clauses between brackets is a vertex or a keyword with defaults. -/
theorem statement?_bracketed (word : List Char) (cs : Clauses) (rest : List Token) :
    statement? (.word word :: .mark '[' :: (clauseTokens cs ++ .mark ']' :: rest)) =
      if isNamed cs then (vertexOrDefaults word cs).map fun s => (s, rest) else none := by
  have hclauses := clauses_clauseTokens cs rest
  cases hnamed : isNamed cs with
  | false => simp [statement?, hclauses, hnamed]
  | true => cases hs : vertexOrDefaults word cs <;> simp [statement?, hclauses, hnamed, hs]

/-! ### Names -/

/-- Reserved words are made of letters. -/
theorem isReserved_of_not_isLower {w : List Char} {c : Char} (hc : c ∈ w)
    (h : Text.isLower (Text.lower c) = false) : isReserved w = false := by
  have hletters : reservedWords.all (fun r => r.toList.all Text.isLower) = true := by decide
  rw [isReserved, ← Bool.not_eq_true, List.contains_iff_mem]
  intro hmem
  have hin : Text.lower c ∈ (String.ofList (w.map Text.lower)).toList := by
    rw [String.toList_ofList]
    exact List.mem_map_of_mem hc
  have hc' := List.all_eq_true.1 (List.all_eq_true.1 hletters _ hmem) _ hin
  rw [h] at hc'
  cases hc'

/-- No word with a digit in it is reserved. -/
theorem isReserved_of_isDigit {w : List Char} {c : Char} (hc : c ∈ w)
    (hd : Text.isDigit c = true) : isReserved w = false := by
  refine isReserved_of_not_isLower hc (Bool.eq_false_iff.2 fun hl => ?_)
  rw [Text.lower_of_isDigit hd] at hl
  have h1 := Text.isDigit_iff.1 hd
  have h2 := Text.isLower_iff.1 hl
  omega

theorem vertexOrDefaults_of_not_reserved {w : List Char} (h : isReserved w = false)
    (cs : Clauses) : vertexOrDefaults w cs = some (.vertex (String.ofList w) cs) := by
  have hkeyword : String.ofList (w.map Text.lower) ∉ ["node", "edge", "graph"] := by
    intro hm
    have hr : isReserved w = true := by
      rw [isReserved]
      simp only [List.mem_cons, List.not_mem_nil, or_false] at hm
      rcases hm with hm | hm | hm <;> rw [hm] <;> rfl
    rw [h] at hr
    cases hr
  rw [vertexOrDefaults, if_neg hkeyword, h, if_neg Bool.false_ne_true]

theorem toList_nodeName (id : ℕ) :
    (nodeName id).toList = "node".toList ++ Nat.toDigits 10 id := by
  rw [nodeName, String.toList_append, Nat.toString_eq_repr, Nat.toList_repr]

theorem isIdentifier_nodeName (id : ℕ) : isIdentifier (nodeName id).toList = true := by
  have hword : ∀ c ∈ Nat.toDigits 10 id, Text.isWord c = true := fun c hc => by
    simp [Text.isWord, Text.isDigit_of_mem_toDigits hc]
  have hfront : Text.isWord 'n' && !Text.isDigit 'n' && "ode".toList.all Text.isWord := by decide
  have htext : (nodeName id).toList = 'n' :: ("ode".toList ++ Nat.toDigits 10 id) := by
    rw [toList_nodeName]
    rfl
  rw [htext, isIdentifier, List.all_append, ← Bool.and_assoc, hfront, Bool.true_and]
  exact List.all_eq_true.2 hword

theorem isUnquoted_nodeName (id : ℕ) : isUnquoted (nodeName id).toList = true :=
  isUnquoted_of_isIdentifier (isIdentifier_nodeName id)

theorem isReserved_nodeName (id : ℕ) : isReserved (nodeName id).toList = false := by
  obtain ⟨c, hc⟩ := List.exists_mem_of_ne_nil _ (Nat.toDigits_ne_nil (n := id) (b := 10))
  refine isReserved_of_isDigit ?_ (Text.isDigit_of_mem_toDigits hc)
  rw [toList_nodeName]
  exact List.mem_append_right _ hc

/-! ### Lines -/

/-- The tokens after a word: clauses between brackets, which say that `cs`. -/
theorem ends_bracketed {clauses : String} {cs : Clauses}
    (h : Lexes clauses.toList (clauseTokens cs)) (he : clauses = "" ↔ cs = []) :
    Ends (bracketed clauses ++ "\n").toList (bracketTokens cs) := by
  unfold bracketed bracketTokens
  by_cases hc : cs = []
  · rw [if_pos hc, if_pos (he.2 hc)]
    exact ⟨'\n', [], rfl, by decide, by decide⟩
  · rw [if_neg hc, if_neg (mt he.1 hc)]
    have hopen : Lexes " [".toList [.mark '['] := by decide
    have hclose : Lexes "]\n".toList [.mark ']'] := by decide
    have htext : (" [" ++ clauses ++ "]" ++ "\n").toList =
        " [".toList ++ (clauses.toList ++ "]\n".toList) := by simp
    rw [htext]
    exact hopen.ends (h.append hclose) (by decide)

theorem spells_vertex {name : List Char} (hname : isReserved name = false) {cs : Clauses}
    (hk : isNamed cs = true) :
    Spells (.word name :: bracketTokens cs) (.vertex (String.ofList name) cs) where
  head := ⟨_, _, rfl⟩
  reads rest hr := by
    unfold bracketTokens
    split_ifs with hcs
    · subst hcs
      exact statement?_of_fresh hname hr
    · simp only [List.cons_append, List.append_assoc, List.nil_append]
      rw [statement?_bracketed, if_pos hk, vertexOrDefaults_of_not_reserved hname]
      rfl

theorem spells_arrow {source target : List Char} (hs : isReserved source = false)
    (ht : isReserved target = false) {cs : Clauses} (hk : isNamed cs = true) :
    Spells (.word source :: .arrow :: .word target :: bracketTokens cs)
      (.arrow (String.ofList source) (String.ofList target) cs) where
  head := ⟨_, _, rfl⟩
  reads rest hr := by
    simp [statement?, hs, ht, bracketedClauses_bracketTokens hk hr]

/-- The keywords that defaults are written for. -/
def IsKeyword (k : String) : Prop := k = "node" ∨ k = "edge"

theorem spells_defaults {k : String} (hkw : IsKeyword k) {cs : Clauses} (hk : isNamed cs = true) :
    Spells ([.word k.toList, .mark '['] ++ (clauseTokens cs ++ [.mark ']'])) (.defaults k cs) where
  head := ⟨_, _, rfl⟩
  reads rest hr := by
    have hv : vertexOrDefaults k.toList cs = some (.defaults k cs) := by
      unfold vertexOrDefaults
      rcases hkw with rfl | rfl <;> rfl
    simp only [List.cons_append, List.nil_append, List.append_assoc]
    rw [statement?_bracketed, if_pos hk, hv]
    rfl

/-- A value that needs no quotes: an identifier that is no keyword, or a numeral. -/
def isBareValue (v : List Char) : Bool := isUnquoted v && !isReserved v

theorem spells_setting {k v : String} (hk : isName k.toList = true)
    (hv : isBareValue v.toList = true) :
    Spells [.word k.toList, .mark '=', .word v.toList] (.setting k (.plain v)) where
  head := ⟨_, _, rfl⟩
  reads rest hr := by
    have hfree : isReserved v.toList = false := by
      simp only [isBareValue, Bool.and_eq_true, Bool.not_eq_true'] at hv
      exact hv.2
    simp [statement?, hk, Token.value?, hfree]

/-- Every name of an attribute is what `p` says. -/
def Keyed (p : List Char → Bool) (a : Attrs) : Prop := ∀ e ∈ a.entries, p e.1.toList = true

instance (p : List Char → Bool) (a : Attrs) : Decidable (Keyed p a) :=
  inferInstanceAs (Decidable (∀ e ∈ a.entries, p e.1.toList = true))

/-- Every name of an attribute is an identifier. -/
abbrev WordKeys (a : Attrs) : Prop := Keyed isIdentifier a

/-- Every name of an attribute is an identifier that is no keyword. -/
abbrev NameKeys (a : Attrs) : Prop := Keyed isName a

theorem NameKeys.wordKeys {a : Attrs} (h : NameKeys a) : WordKeys a :=
  fun e he => isIdentifier_of_isName (h e he)

theorem isNamed_shown {a : Attrs} (h : NameKeys a) : isNamed (shown a.entries) = true := by
  rw [isNamed, shown, List.all_map]
  exact List.all_eq_true.2 h

theorem says_defaults {k : String} (hkw : IsKeyword k) {a : Attrs} (h : NameKeys a) :
    Says (k ++ " [" ++ a.format ++ "]\n").toList [.defaults k (shown a.entries)] := by
  have hopen : Lexes (k ++ " [").toList [.word k.toList, .mark '['] := by
    rcases hkw with rfl | rfl <;> decide
  have hclose : Lexes "]\n".toList [.mark ']'] := by decide
  refine says_line ?_ (spells_defaults hkw (isNamed_shown h))
  rw [String.toList_append, String.toList_append, List.append_assoc]
  exact hopen.append ((lexes_format h.wordKeys).append hclose)

/-- A setting as it is written, a line. -/
def settingLine (s : String × String) : String := s.1 ++ "=" ++ s.2 ++ "\n"

theorem says_setting {s : String × String} (hk : isName s.1.toList = true)
    (hv : isBareValue s.2.toList = true) :
    Says (settingLine s).toList [.setting s.1 (.plain s.2)] := by
  have hend : Ends "\n".toList [] := ⟨'\n', [], rfl, by decide, by decide⟩
  have hword : isUnquoted s.2.toList = true := (Bool.and_eq_true _ _ ▸ hv).1
  refine says_line ?_ (spells_setting hk hv)
  have h := lexes_clause (isIdentifier_of_isName hk) (Lexes.unquoted hword hend)
  simpa [settingLine] using h

/-! ### Whole graphs -/

/-- A name that is not reserved is read from a header, whatever follows it; one that is reserved is
refused. -/
theorem read_header {uid : String} (hid : isIdentifier uid.toList = true) (rest : String) :
    read ("digraph " ++ uid ++ " \x7b\n" ++ rest) =
      if isReserved uid.toList then none
      else ((tokens? rest.toList).bind statements).map fun ss => ⟨uid, ss⟩ := by
  have hkeyword : Lexes "digraph ".toList [.word "digraph".toList] := by decide
  have hopen : Lexes " \x7b\n".toList [.mark '\x7b'] := by decide
  have hname := Lexes.unquoted (isUnquoted_of_isIdentifier hid)
    (hopen.ends (b := []) rfl (by decide))
  have hheader := hkeyword.append hname
  have htext : ("digraph " ++ uid ++ " \x7b\n" ++ rest).toList =
      "digraph ".toList ++ (uid.toList ++ (" \x7b\n".toList ++ [])) ++ rest.toList := by
    simp
  have hlower : "digraph".toList.map Text.lower = "digraph".toList := by decide
  rw [read, htext, tokens?_append hheader]
  cases tokens? rest.toList with
  | none => simp
  | some ts =>
    simp only [Option.map_some, Option.bind_some, List.append_nil, List.cons_append,
      List.nil_append, digraph, hlower, hid, true_and, String.ofList_toList,
      Bool.not_eq_true']
    cases isReserved uid.toList <;> rfl

/-- A graph between its braces is read as the statements that its lines say. -/
theorem read_of_says {uid lines text : String} {ss : List Statement}
    (hid : isIdentifier uid.toList = true) (hres : isReserved uid.toList = false)
    (h : Says lines.toList ss)
    (ht : text = "digraph " ++ uid ++ " \x7b\n" ++ (lines ++ "\x7d\n")) :
    read text = some ⟨uid, ss⟩ := by
  obtain ⟨tss, hlines, hspells⟩ := h
  have hclose : Lexes "\x7d\n".toList [.mark '\x7d'] := by decide
  have hend : statements [.mark '\x7d'] = some [] := by
    rw [statements]
    rfl
  have hstatements := (statements_of_forall₂ hspells [.mark '\x7d'] rfl).1
  rw [hend, Option.map_some, List.append_nil] at hstatements
  rw [ht, read_header hid, hres, if_neg Bool.false_ne_true, String.toList_append,
    tokens?_of_lexes (hlines.append hclose), Option.bind_some, hstatements, Option.map_some]

end Reader
end Dot
end ApiDiagrams
