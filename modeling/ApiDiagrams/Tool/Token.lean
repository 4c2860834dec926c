import ApiDiagrams.Text.Blank

/-!
# Tokens of command scripts

A layout tool may be a script of commands. Its text is cut into words and operators. A word is made
of pieces: text as it stands, and what is to be filled in when the script runs. What stood in quotes
is never cut again.

* `Piece`, `Word`, `Token`;
* `wordPieces`: the pieces of a word;
* `tokens?`: the tokens of a script, none when a quote is not closed.
-/

namespace ApiDiagrams
namespace Tool

/-- A piece of a word. -/
inductive Piece
  | text (chars : List Char) (quoted : Bool)
  /-- A parameter or variable to fill in, possibly with a form such as `:-` and its operand. -/
  | parameter (name : List Char) (quoted : Bool)
  /-- Commands whose output is filled in. -/
  | output (script : List Char) (quoted : Bool)
  /-- A sum to work out. -/
  | sum (formula : List Char) (quoted : Bool)
  deriving DecidableEq, Repr, Inhabited

/-- A word of a script. -/
abbrev Word := List Piece

/-- A token of a script. -/
inductive Token
  | word (w : Word)
  /-- An operator; a line feed is the operator `;`. The number of a stream directly before an arrow
  is part of the operator. -/
  | operator (chars : List Char)
  deriving DecidableEq, Repr, Inhabited

/-- A token with the number of its line. -/
abbrev Placed := Token × Nat

/-- The operators, longest ones first. -/
def operators : List (List Char) :=
  ["<<-", "&&", "||", ";;", ">>", ">&", ">|", "<&", "<<", ";", "|", "&", "(", ")", "<", ">"].map
    String.toList

/-- An operator that redirects a stream. -/
def isArrow (o : List Char) : Bool := o.head? == some '>' || o.head? == some '<'

/-- The operator at the front of a text without the number of a stream, and the rest. -/
def plainOperator? (text : List Char) : Option (List Char × List Char) :=
  operators.findSome? fun o => (Text.startsWith? o text).map fun rest => (o, rest)

/-- The operator at the front of a text, and the rest. -/
def operator? (text : List Char) : Option (List Char × List Char) :=
  match text with
  | c :: rest =>
    if Text.isDigit c && isArrow rest then
      (plainOperator? rest).map fun (o, rest) => (c :: o, rest)
    else plainOperator? text
  | [] => none

/-- A character that ends a word outside quotes. -/
def endsWord (c : Char) : Bool :=
  Text.isAsciiBlank c || c == ';' || c == '&' || c == '|' || c == '(' || c == ')' || c == '<' ||
    c == '>'

/-! ### What is filled in -/

/-- The text up to the sign that closes what `opening` opened, and what follows the sign. Signs in
quotes do not count. -/
def enclosed (opening closing : Char) : (fuel depth : Nat) → (inQuotes : Bool) → List Char →
    Option (List Char × List Char)
  | 0, _, _, _ | _, _, _, [] => none
  | fuel + 1, depth, inQuotes, c :: rest => do
    if c == '\\' then
      let (inside, after) ← enclosed opening closing fuel depth inQuotes (rest.drop 1)
      return (c :: rest.take 1 ++ inside, after)
    else if c == '\'' && !inQuotes then
      let quoted := rest.takeWhile (· ≠ '\'') ++ ['\'']
      let (inside, after) ← enclosed opening closing fuel depth inQuotes (rest.drop quoted.length)
      return (c :: quoted ++ inside, after)
    else if c == closing && depth = 0 && !inQuotes then return ([], rest)
    else
      let depth :=
        if inQuotes then depth
        else if c == opening then depth + 1
        else if c == closing then depth - 1
        else depth
      let (inside, after) ← enclosed opening closing fuel depth (inQuotes != (c == '"')) rest
      return (c :: inside, after)

/-- The commands between back quotes, and what follows them. -/
def backQuoted : List Char → Option (List Char × List Char)
  | [] => none
  | '\\' :: c :: rest => do
    let (inside, after) ← backQuoted rest
    let kept := if c == '\x60' || c == '\\' || c == '$' then [c] else ['\\', c]
    return (kept ++ inside, after)
  | c :: rest =>
    if c == '\x60' then some ([], rest)
    else (backQuoted rest).map fun (inside, after) => (c :: inside, after)

/-- What stands between the first and the last character when these are brackets. -/
def bracketed? (text : List Char) : Option (List Char) :=
  match text with
  | '(' :: rest => if rest.getLast? = some ')' then some rest.dropLast else none
  | _ => none

/-- The signs that name a parameter by themselves. -/
def isParameterSign (c : Char) : Bool := Text.isDigit c || "@*#?$!-".toList.contains c

/-- What a dollar sign before a text stands for, and the rest. -/
def afterDollar (quoted : Bool) (text : List Char) : Option (Piece × List Char) :=
  match text with
  | '(' :: rest => do
    let (inside, after) ← enclosed '(' ')' (rest.length + 1) 0 false rest
    match bracketed? inside with
    | some formula => return (.sum formula quoted, after)
    | none => return (.output inside quoted, after)
  | '\x7b' :: rest => do
    let (name, after) ← enclosed '\x7b' '\x7d' (rest.length + 1) 0 false rest
    return (.parameter name quoted, after)
  | c :: rest =>
    if isParameterSign c then some (.parameter [c] quoted, rest)
    else
      match Text.span Text.isWord text with
      | ([], _) => some (.text ['$'] true, text)
      | (name, after) => some (.parameter name quoted, after)
  | [] => some (.text ['$'] true, [])

/-- The piece at the front of a text where quotes do not count, and the rest. A backslash keeps the
signs that are given from having a meaning. -/
def openPiece (kept : List Char) : List Char → Option (Piece × List Char)
  | '\\' :: '\n' :: rest => some (.text [] true, rest)
  | '\\' :: c :: rest =>
    some (.text (if kept.contains c then [c] else ['\\', c]) true, rest)
  | '$' :: rest => afterDollar true rest
  | c :: rest =>
    if c == '\x60' then (backQuoted rest).map fun (script, after) => (.output script true, after)
    else some (.text [c] true, rest)
  | [] => none

/-- The pieces up to the closing double quote, and the rest. -/
def doubleQuoted : (fuel : Nat) → List Char → Option (Word × List Char)
  | 0, _ | _, [] => none
  | _, '"' :: rest => some ([], rest)
  | fuel + 1, text => do
    let (piece, rest) ← openPiece ['"', '\\', '$', '\x60'] text
    let (w, after) ← doubleQuoted fuel rest
    return (piece :: w, after)

/-- The pieces of a text between two lines that mark it. -/
def documentPieces : (fuel : Nat) → List Char → Option Word
  | 0, _ => none
  | _, [] => some []
  | fuel + 1, text => do
    let (piece, rest) ← openPiece ['\\', '$', '\x60'] text
    return piece :: (← documentPieces fuel rest)

/-- The pieces of a word up to a character that ends it, and the rest. -/
def wordPieces (ends : Char → Bool) : (fuel : Nat) → List Char → Option (Word × List Char)
  | 0, _ => none
  | _, [] => some ([], [])
  | fuel + 1, c :: rest => do
    let continued (w : Word) (rest : List Char) : Option (Word × List Char) := do
      let (more, after) ← wordPieces ends fuel rest
      return (w ++ more, after)
    if ends c then return ([], c :: rest)
    else if c == '\'' then
      let (inside, more) := Text.span (· ≠ '\'') rest
      if more.isEmpty then none else continued [.text inside true] (more.drop 1)
    else if c == '"' then
      let (inside, more) ← doubleQuoted fuel rest
      continued (.text [] true :: inside) more
    else if c == '\\' then
      match rest with
      | '\n' :: more => continued [] more
      | d :: more => continued [.text [d] true] more
      | [] => return ([.text ['\\'] true], [])
    else if c == '$' then
      let (piece, more) ← afterDollar false rest
      continued [piece] more
    else if c == '\x60' then
      let (script, more) ← backQuoted rest
      continued [.output script false] more
    else continued [.text [c] false] rest

/-! ### Tokens -/

/-- A text between two marks: its lines up to the mark, and what follows it. Tabs in front of lines
are dropped when `tabs` says so. -/
def documentLines (tabs : Bool) (mark : List Char) : List (List Char) →
    List (List Char) × List (List Char)
  | [] => ([], [])
  | l :: rest =>
    let l := if tabs then l.dropWhile (· == '\t') else l
    if l == mark then ([], rest)
    else
      let (inside, after) := documentLines tabs mark rest
      (l :: inside, after)

/-- The text that follows an arrow for it on the next lines: its pieces, and the script without
it. -/
def document? (tabs : Bool) (text : List Char) : Option (Word × List Char) := do
  let text := text.dropWhile fun c => c == ' ' || c == '\t'
  let (mark, rest) ← wordPieces endsWord (text.length + 1) text
  let chars := mark.flatMap fun
    | .text cs _ => cs
    | _ => []
  let isQuoted := mark.any fun
    | .text _ quoted => quoted
    | _ => false
  let (line, later) := Text.span (· ≠ '\n') rest
  let (inside, after) := documentLines tabs chars (Text.splitOn '\n' (later.drop 1))
  let body := inside.flatMap (· ++ ['\n'])
  let w ← if isQuoted then some [.text body true] else documentPieces (body.length + 1) body
  return (w, line ++ '\n' :: Text.intercalate ['\n'] after)

/-- The arrow of an operator is for a text on the next lines. Tells whether tabs are dropped. -/
def documentArrow? (o : List Char) : Option Bool :=
  match o.dropWhile Text.isDigit with
  | ['<', '<'] => some false
  | ['<', '<', '-'] => some true
  | _ => none

/-- The tokens from a line on; `fuel` bounds their number. -/
def tokensFrom : (fuel : Nat) → (line : Nat) → List Char → Option (List Placed)
  | 0, _, _ => none
  | _, _, [] => some []
  | fuel + 1, line, c :: rest => do
    if c == '\n' then return (.operator [';'], line) :: (← tokensFrom fuel (line + 1) rest)
    if Text.isAsciiBlank c then tokensFrom fuel line rest
    else if c == '#' then tokensFrom fuel line (rest.dropWhile (· ≠ '\n'))
    else if c == '\\' && rest.head? = some '\n' then tokensFrom fuel (line + 1) (rest.drop 1)
    else
      match operator? (c :: rest) with
      | some (o, more) =>
        match documentArrow? o with
        | some tabs =>
          let (w, more) ← document? tabs more
          return (.operator ['<', '<'], line) :: (.word w, line) :: (← tokensFrom fuel line more)
        | none => return (.operator o, line) :: (← tokensFrom fuel line more)
      | none =>
        let (w, more) ← wordPieces endsWord (rest.length + 2) (c :: rest)
        let taken := (c :: rest).take (rest.length + 1 - more.length)
        return (.word w, line) :: (← tokensFrom fuel (line + taken.count '\n') more)

/-- The tokens of a script. -/
def tokens? (text : List Char) : Option (List Placed) := tokensFrom (2 * text.length + 2) 1 text

end Tool
end ApiDiagrams
