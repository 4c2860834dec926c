import ApiDiagrams.Dot.Graph
import ApiDiagrams.Text.Ascii
import Mathlib.Tactic

/-!
# A reader of the graph language

The part of the graph language that directed graphs without subgraphs are written in: statements
for defaults, settings, vertices and arrows, with clauses between brackets. Blanks and comments
may stand between any two tokens.

* `Token`, `Mode`, `step`, `run`: a machine that cuts a text into tokens, a character a step;
* `Statement`, `Digraph`: what is read;
* `clauses`, `statement?`, `statements`, `digraph`: tokens to statements;
* `read`: a text to what it says.

A word without quotes is an identifier or a numeral, and six identifiers are keywords, in letters of
any case, that name nothing. A quoted text ends at the first quote that no backslash before it has
consumed; a backslash consumes the character after it, goes away before a quote, and goes away with a
line feed. An HTML-like text ends at the angle bracket that matches its first one.

Everything that is read here is a graph of the language, and says there what is read. The language
has more: subgraphs, undirected edges, ports behind names, quoted names, semicolons, and comments up
to the end of a line are refused.
-/

namespace ApiDiagrams
namespace Dot
namespace Reader

/-! ### Tokens -/

/-- A token of the graph language. -/
inductive Token
  /-- A name, a number or a keyword, without quotes. -/
  | word (text : List Char)
  | quoted (text : List Char)
  | html (text : List Char)
  /-- A brace, a bracket, an equals sign, a comma or a semicolon. -/
  | mark (c : Char)
  | arrow
  deriving DecidableEq, Repr

/-- Where in a token the machine stands. What it has read of the token is kept backwards. -/
inductive Mode
  | between
  | word (read : List Char)
  /-- After a hyphen: an arrow or a negative number. -/
  | hyphen
  | quoted (read : List Char)
  /-- After a backslash between quotes. -/
  | escaped (read : List Char)
  /-- In an HTML-like text, inside `depth` further pairs of angle brackets. -/
  | html (depth : ℕ) (read : List Char)
  /-- After a slash that should open a comment. -/
  | slash
  | comment
  /-- After a star in a comment. -/
  | star
  deriving DecidableEq, Repr

/-- A token of its own. -/
def isMark (c : Char) : Bool :=
  c == '\x7b' || c == '\x7d' || c == '[' || c == ']' || c == '=' || c == ',' || c == ';'

/-- A character that stands between tokens. -/
def isBlank (c : Char) : Bool := c == ' ' || c == '\t' || c == '\r' || c == '\n'

/-- A character that words are cut with: letters, digits, underscores, points, and all beyond
ASCII. -/
def isBare (c : Char) : Bool := Text.isWord c || c == '.' || 128 ≤ c.toNat

/-- A character that an identifier can start with. -/
def isLetter (c : Char) : Bool := Text.isLetter c || c == '_' || 128 ≤ c.toNat

/-- Letters, underscores, characters beyond ASCII and digits, with no digit in front. -/
def isAtom : List Char → Bool
  | [] => false
  | c :: rest => isLetter c && rest.all fun d => isLetter d || Text.isDigit d

/-- Digits with one point at most, in front of them, among them or behind them. -/
def isUnsigned (w : List Char) : Bool :=
  match w.dropWhile Text.isDigit with
  | [] => w ≠ []
  | c :: fraction => c == '.' && fraction.all Text.isDigit && w ≠ ['.']

/-- A number, which may have a minus sign in front. -/
def isNumeral : List Char → Bool
  | '-' :: w => isUnsigned w
  | w => isUnsigned w

/-- A word of the language: an identifier, a keyword or a numeral. -/
def isUnquoted (w : List Char) : Bool := isAtom w || isNumeral w

/-- The token that the characters of a word are, which were read backwards. -/
def word? (read : List Char) : Option Token :=
  if isUnquoted read.reverse then some (.word read.reverse) else none

/-- A step from between two tokens. -/
def start (c : Char) : Option (List Token × Mode) :=
  if isBare c then some ([], .word [c])
  else if isBlank c then some ([], .between)
  else if isMark c then some ([.mark c], .between)
  else if c = '"' then some ([], .quoted [])
  else if c = '<' then some ([], .html 0 [])
  else if c = '-' then some ([], .hyphen)
  else if c = '/' then some ([], .slash)
  else none

/-- One step: the tokens that the character ends, and where the machine stands then. -/
def step : Mode → Char → Option (List Token × Mode)
  | .between, c => start c
  | .word read, c =>
    if isBare c then some ([], .word (c :: read))
    else (word? read).bind fun w => (start c).map fun r => (w :: r.1, r.2)
  | .hyphen, c =>
    if c = '>' then some ([.arrow], .between)
    else if isBare c then some ([], .word [c, '-'])
    else none
  | .quoted read, c =>
    if c = '"' then some ([.quoted read.reverse], .between)
    else if c = '\\' then some ([], .escaped read)
    else some ([], .quoted (c :: read))
  | .escaped read, c =>
    if c = '"' then some ([], .quoted (c :: read))
    else if c = '\n' then some ([], .quoted read)
    else some ([], .quoted (c :: '\\' :: read))
  | .html depth read, c =>
    if c = '>' then
      match depth with
      | 0 => some ([.html read.reverse], .between)
      | depth + 1 => some ([], .html depth (c :: read))
    else some ([], .html (if c = '<' then depth + 1 else depth) (c :: read))
  | .slash, c => if c = '*' then some ([], .comment) else none
  | .comment, c => some ([], if c = '*' then .star else .comment)
  | .star, c => some ([], if c = '/' then .between else if c = '*' then .star else .comment)

/-- The tokens that a text ends, and where the machine stands after it. -/
def run : Mode → List Char → Option (List Token × Mode)
  | m, [] => some ([], m)
  | m, c :: rest => do
    let (ts, m) ← step m c
    let (us, m) ← run m rest
    return (ts ++ us, m)

/-- The tokens of a whole text. -/
def tokens? (text : List Char) : Option (List Token) :=
  match run .between text with
  | some (ts, .between) => some ts
  | some (ts, .word read) => (word? read).map fun w => ts ++ [w]
  | _ => none

/-! ### Statements -/

/-- A value as it is read. -/
inductive Value
  | plain (text : String)
  | html (text : String)
  deriving DecidableEq, Repr

/-- The clauses between the brackets of a statement, in order. -/
abbrev Clauses := List (String × Value)

/-- A statement. -/
inductive Statement
  /-- Defaults for what the keyword names. -/
  | defaults (keyword : String) (clauses : Clauses)
  | setting (key : String) (value : Value)
  | vertex (name : String) (clauses : Clauses)
  | arrow (source target : String) (clauses : Clauses)
  deriving DecidableEq, Repr

/-- A directed graph as it is read. -/
structure Digraph where
  name : String
  statements : List Statement
  deriving DecidableEq, Repr

/-- The words that cannot be names, in small letters. -/
def reservedWords : List String := ["node", "edge", "graph", "digraph", "subgraph", "strict"]

/-- The word cannot be a name, whatever the case of its letters. -/
def isReserved (word : List Char) : Bool :=
  reservedWords.contains (String.ofList (word.map Text.lower))

/-- A letter or an underscore, then letters, digits and underscores. -/
def isIdentifier : List Char → Bool
  | [] => false
  | c :: rest => Text.isWord c && !Text.isDigit c && rest.all Text.isWord

/-- An identifier that is no keyword, so that it can name an attribute or a setting. -/
def isName (word : List Char) : Bool := isIdentifier word && !isReserved word

/-- The value that a token is. -/
def Token.value? : Token → Option Value
  | .word text => if isReserved text then none else some (.plain (String.ofList text))
  | .quoted text => some (.plain (String.ofList text))
  | .html text => some (.html (String.ofList text))
  | _ => none

/-- Clauses up to the bracket that closes them, and what follows it. -/
def clauses : List Token → Option (Clauses × List Token)
  | .mark ']' :: rest => some ([], rest)
  | .word key :: .mark '=' :: v :: .mark ',' :: rest =>
    if isName key then do
      let value ← v.value?
      let (more, rest) ← clauses rest
      return ((String.ofList key, value) :: more, rest)
    else none
  | .word key :: .mark '=' :: v :: .mark ']' :: rest =>
    if isName key then do
      let value ← v.value?
      return ([(String.ofList key, value)], rest)
    else none
  | _ => none

/-- Clauses between brackets, if there are any, and what follows them. -/
def bracketedClauses : List Token → Option (Clauses × List Token)
  | .mark '[' :: rest => clauses rest
  | rest => some ([], rest)

/-- A word with clauses between brackets: a vertex, or defaults for what a keyword names. -/
def vertexOrDefaults (word : List Char) (cs : Clauses) : Option Statement :=
  let keyword := String.ofList (word.map Text.lower)
  if keyword ∈ ["node", "edge", "graph"] then some (.defaults keyword cs)
  else if isReserved word then none
  else some (.vertex (String.ofList word) cs)

/-- A statement at the front, and what follows it. -/
def statement? : List Token → Option (Statement × List Token)
  | .word key :: .mark '=' :: v :: rest =>
    if isName key then do
      let value ← v.value?
      return (.setting (String.ofList key) value, rest)
    else none
  | .word source :: .arrow :: .word target :: rest =>
    if isReserved source || isReserved target then none
    else do
      let (cs, rest) ← bracketedClauses rest
      return (.arrow (String.ofList source) (String.ofList target) cs, rest)
  | .word word :: .mark '[' :: rest => do
    let (cs, rest) ← clauses rest
    let s ← vertexOrDefaults word cs
    return (s, rest)
  | .word name :: rest =>
    if isReserved name then none else some (.vertex (String.ofList name) [], rest)
  | _ => none

theorem clauses_length {l rest : List Token} {cs : Clauses} (h : clauses l = some (cs, rest)) :
    rest.length < l.length := by
  fun_induction clauses l generalizing cs rest with
  | case1 rest' =>
    simp only [Option.some.injEq, Prod.mk.injEq] at h
    simp [h.2]
  | case2 key v rest' hk ih =>
    simp only [Option.bind_eq_bind, Option.bind_eq_some_iff] at h
    obtain ⟨value, -, r, hr, he⟩ := h
    simp only [Option.pure_def, Option.some.injEq, Prod.mk.injEq] at he
    obtain ⟨-, rfl⟩ := he
    have := ih hr
    simp only [List.length_cons]
    omega
  | case4 key v rest' hk =>
    simp only [Option.bind_eq_bind, Option.bind_eq_some_iff] at h
    obtain ⟨value, -, he⟩ := h
    simp only [Option.pure_def, Option.some.injEq, Prod.mk.injEq] at he
    obtain ⟨-, rfl⟩ := he
    simp only [List.length_cons]
    omega
  | case3 => cases h
  | case5 => cases h
  | case6 => cases h

theorem bracketedClauses_length {l rest : List Token} {cs : Clauses}
    (h : bracketedClauses l = some (cs, rest)) : rest.length ≤ l.length := by
  unfold bracketedClauses at h
  split at h
  · have := clauses_length h
    simp only [List.length_cons]
    omega
  · simp only [Option.some.injEq, Prod.mk.injEq] at h
    simp [h.2]

theorem statement?_length {l rest : List Token} {s : Statement}
    (h : statement? l = some (s, rest)) : rest.length < l.length := by
  unfold statement? at h
  split at h
  · split_ifs at h
    simp only [Option.bind_eq_bind, Option.bind_eq_some_iff] at h
    obtain ⟨value, -, he⟩ := h
    simp only [Option.pure_def, Option.some.injEq, Prod.mk.injEq] at he
    simp only [he.2, List.length_cons]
    omega
  · split_ifs at h
    simp only [Option.bind_eq_bind, Option.bind_eq_some_iff] at h
    obtain ⟨r, hr, he⟩ := h
    simp only [Option.pure_def, Option.some.injEq, Prod.mk.injEq] at he
    have := bracketedClauses_length hr
    simp only [← he.2, List.length_cons]
    omega
  · simp only [Option.bind_eq_bind, Option.bind_eq_some_iff] at h
    obtain ⟨r, hr, s', -, he⟩ := h
    simp only [Option.pure_def, Option.some.injEq, Prod.mk.injEq] at he
    have := clauses_length hr
    simp only [← he.2, List.length_cons]
    omega
  · split_ifs at h
    simp only [Option.some.injEq, Prod.mk.injEq] at h
    simp [h.2]
  · cases h

/-- The statements up to the brace that closes the graph, which must be the last token. -/
def statements (l : List Token) : Option (List Statement) :=
  if l = [.mark '\x7d'] then some []
  else
    match h : statement? l with
    | none => none
    | some (s, rest) =>
      have := statement?_length h
      (statements rest).map (s :: ·)
termination_by l.length

/-- A directed graph. -/
def digraph : List Token → Option Digraph
  | .word keyword :: .word name :: .mark '\x7b' :: rest =>
    if keyword.map Text.lower = "digraph".toList ∧ isIdentifier name ∧ !isReserved name then
      (statements rest).map fun ss => ⟨String.ofList name, ss⟩
    else none
  | _ => none

/-- Reads a graph. -/
def read (text : String) : Option Digraph := (tokens? text.toList).bind digraph

end Reader
end Dot
end ApiDiagrams
