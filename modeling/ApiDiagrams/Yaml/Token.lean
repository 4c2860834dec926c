import ApiDiagrams.Yaml.Scalar

/-!
# Tokens of YAML

The tokens are found one after another, with a queue of those that are found but not yet taken. A
key without an indicator is known for one only when the colon behind it is found: its token, and the
start of its mapping, are then put into the queue before it.

* `Token`: the tokens;
* `Scanner`: the state; `Scanner.fetch`: finds one more token;
* `Scanner.fill`: finds tokens until the next one is certain.
-/

namespace ApiDiagrams
namespace Yaml

/-- A token. -/
inductive Token
  | streamStart
  | streamEnd
  | version (major minor : Nat)
  | tagDirective (handle stem : List Char)
  | documentStart
  | documentEnd
  | blockSequenceStart
  | blockMappingStart
  | blockEnd
  | flowSequenceStart
  | flowSequenceEnd
  | flowMappingStart
  | flowMappingEnd
  | blockEntry
  | flowEntry
  | key
  | value
  | aliasTo (name : List Char)
  | anchor (name : List Char)
  | tag (handle suffix : List Char)
  | scalar (text : List Char) (plain : Bool)
  deriving DecidableEq, Inhabited

/-- A place where a key without an indicator may have started. -/
structure PossibleKey where
  isPossible : Bool := false
  /-- The key stands at the indentation of its block, so there must be one. -/
  isRequired : Bool := false
  /-- The number of its token. -/
  token : Nat := 0
  index : Nat := 0
  line : Nat := 0
  column : Nat := 0
  deriving Inhabited

/-- The state of finding tokens. -/
structure Scanner where
  cursor : Cursor
  started : Bool := false
  /-- The number of flow collections around. -/
  flow : Nat := 0
  indent : Int := -1
  /-- The indentations around, innermost first. -/
  outer : List Int := []
  /-- The possible keys, one for each flow collection around and one for the block, innermost
  first. -/
  keys : List PossibleKey := []
  keyAllowed : Bool := false
  /-- The tokens found and not yet taken. -/
  queue : List Token := []
  /-- The number of tokens taken. -/
  taken : Nat := 0
  /-- What follows the text cannot be read. -/
  isCut : Bool := false
  /-- A line that starts before this place is taken to start with a mark. -/
  marked : Nat := 0

/-- The state before the first token. A mark at the start of the text stands for one at the start of
every line of the first piece. -/
def Scanner.start (source : Source) : Scanner where
  cursor := { rest := source.text }
  isCut := source.isCut
  marked := if source.text.head? == some byteOrderMark then source.opening else 0

/-- The greatest nesting of flow collections and of indentations. -/
def maxNesting : Nat := 10000

namespace Scanner

/-- Adds a token to the queue. -/
def push (s : Scanner) (t : Token) : Scanner := { s with queue := s.queue ++ [t] }

/-- Puts a token into the queue before the token with the given number. -/
def insertAt (s : Scanner) (number : Nat) (t : Token) : Scanner :=
  let k := number - s.taken
  { s with queue := s.queue.take k ++ t :: s.queue.drop k }

/-- Moves the cursor. -/
def move (s : Scanner) (f : Cursor → Cursor) : Scanner := { s with cursor := f s.cursor }

/-- Closes the blocks that are indented further than a column. -/
def unroll (column : Int) : (fuel : Nat) → Scanner → Scanner
  | 0, s => s
  | fuel + 1, s =>
    if s.flow == 0 && s.indent > column then
      unroll column fuel
        { s.push .blockEnd with indent := s.outer.headD (-1), outer := s.outer.tail }
    else s

/-- Closes the blocks that are indented further than a column. -/
def unrollTo (s : Scanner) (column : Int) : Scanner := s.unroll column (s.outer.length + 1)

/-- Opens a block at a column if it is indented further than the one around, with its token before
the given one, or at the end of the queue. -/
def roll (s : Scanner) (column : Nat) (before : Option Nat) (t : Token) : Option Scanner :=
  if s.flow == 0 && s.indent < column then
    let s := { s with outer := s.indent :: s.outer, indent := column }
    if s.outer.length > maxNesting then none
    else
      match before with
      | some number => some (s.insertAt number t)
      | none => some (s.push t)
  else some s

/-- The key is still possible: it lies on this line and not too far back. A required key that is no
longer possible is an error. -/
def keyIsValid (s : Scanner) (k : PossibleKey) : Option Bool :=
  if !k.isPossible then some false
  else if k.line < s.cursor.line || k.index + 1024 < s.cursor.index then
    if k.isRequired then none else some false
  else some true

/-- Gives up the possible key of the innermost collection; a required one is an error. -/
def removeKey (s : Scanner) : Option Scanner :=
  match s.keys with
  | k :: rest =>
    if k.isPossible && k.isRequired then none
    else some { s with keys := { k with isPossible := false } :: rest }
  | [] => some s

/-- Notes that a key may start here. -/
def saveKey (s : Scanner) : Option Scanner :=
  if !s.keyAllowed then some s
  else do
    let s ← s.removeKey
    let k : PossibleKey :=
      { isPossible := true
        isRequired := s.flow == 0 && s.indent == s.cursor.column
        token := s.taken + s.queue.length
        index := s.cursor.index, line := s.cursor.line, column := s.cursor.column }
    return { s with keys := k :: s.keys.tail }

/-! ### Blanks and comments -/

/-- The number of characters, at most 512, before the first one that is no blank and no ASCII line
break, when a comment starts there. -/
def commentAhead : (limit : Nat) → (passed : Nat) → List Char → Option Nat
  | 0, _, _ => none
  | _, _, [] => none
  | limit + 1, passed, x :: rest =>
    if x == '#' then some passed
    else if isBlank x || x == '\n' || x == '\r' then commentAhead limit (passed + 1) rest
    else none

/-- Past `n` characters, over line breaks. -/
def passOver : (fuel : Nat) → (target : Nat) → Cursor → Cursor
  | 0, _, c => c
  | fuel + 1, target, c =>
    if c.index ≥ target then c
    else passOver fuel target (if c.here isBreak then c.skipLine else c.skip)

/-- Past the comment that starts here and those on the lines right below it. -/
def skipComments : (fuel : Nat) → Cursor → Cursor
  | 0, c => c
  | fuel + 1, c =>
    let c := c.skipToBreak
    match commentAhead 512 0 c.rest with
    | some n => skipComments fuel (passOver (n + 1) (c.index + n) c)
    | none => c

/-- Past the mark that a line starts with. -/
def skipMark (s : Scanner) : Scanner :=
  if s.cursor.column == 0 && s.cursor.index < s.marked then s.move Cursor.skip else s

/-- Past blanks, comments and line breaks to the next token. Tabs may not indent a block. -/
def toNextToken : (fuel : Nat) → Scanner → Scanner
  | 0, s => s
  | fuel + 1, s =>
    let s := s.skipMark
    let tabs := s.flow > 0 || !s.keyAllowed
    let s := s.move fun c =>
      c.skipWhile (fun x => x == ' ' || (tabs && x == '\t')) c.ahead
    let s := if s.cursor.sees '#' then s.move (skipComments s.cursor.ahead) else s
    if s.cursor.here isBreak then
      toNextToken fuel
        { s.move Cursor.skipLine with keyAllowed := if s.flow == 0 then true else s.keyAllowed }
    else s

/-- Past a comment behind a token on its line. -/
def skipLineComment (s : Scanner) : Scanner :=
  if s.cursor.newlines > 0 then s
  else
    let c := s.cursor.skipBlanks
    if c.sees '#' then { s with cursor := c.skipToBreak } else s

/-! ### Directives, anchors and tags -/

/-- Reads the characters that satisfy `p`. -/
def readWhile (p : Char → Bool) (c : Cursor) : List Char × Cursor :=
  let after := c.skipWhile p c.ahead
  (c.rest.take (after.index - c.index), after)

/-- Reads a number of at most two digits. -/
def readNumber (c : Cursor) : Option (Nat × Cursor) :=
  match readWhile Text.isDigit c with
  | ([], _) => none
  | (digits, after) =>
    if digits.length > 2 then none else some (Text.decimalNumber digits, after)

/-- Reads a tag handle: an exclamation mark, or a word between two of them. -/
def readHandle (directive : Bool) (c : Cursor) : Option (List Char × Cursor) :=
  if !c.sees '!' then none
  else
    let (word, after) := readWhile isAlpha c.skip
    if after.sees '!' then some ('!' :: word ++ ['!'], after.skip)
    else if directive && !word.isEmpty then none
    else some ('!' :: word, after)

/-- A character of an address that stands for itself. -/
def isUriChar (c : Char) : Bool :=
  isAlpha c || ";/?:@&=+$,.!~*'()[]".toList.contains c

/-- Reads the byte of a percent escape. -/
def readPercent (c : Cursor) : Option (UInt8 × Cursor) :=
  match c.rest with
  | '%' :: a :: b :: _ =>
    if Text.isHexDigit a && Text.isHexDigit b then
      some ((Text.hexNumber [a, b]).toUInt8, c.skipMany 3)
    else none
  | _ => none

/-- Reads `n` percent escapes of bytes that continue a character. -/
def readContinuations : Nat → Cursor → Option Cursor
  | 0, c => some c
  | n + 1, c => do
    let (b, c) ← readPercent c
    if Text.isContinuation b then readContinuations n c else none

/-- Reads a character whose bytes are written as percent escapes. One outside ASCII reads as U+FFFD,
since no tag of interest has any. -/
def readEscaped (c : Cursor) : Option (Char × Cursor) := do
  let (b, c) ← readPercent c
  match ← Encoding.leadWidth b with
  | 1 => return (Char.ofNat b.toNat, c)
  | n => return ('\uFFFD', ← readContinuations (n - 1) c)

/-- Reads the characters of an address. -/
def readUriFrom : (fuel : Nat) → (acc : List Char) → Cursor → Option (List Char × Cursor)
  | 0, acc, c => some (acc.reverse, c)
  | fuel + 1, acc, c =>
    match c.rest with
    | [] => some (acc.reverse, c)
    | x :: _ =>
      if x == '%' then do
        let (e, after) ← readEscaped c
        readUriFrom fuel (e :: acc) after
      else if isUriChar x then readUriFrom fuel (x :: acc) c.skip
      else some (acc.reverse, c)

/-- Reads an address after `head`, of which the first character does not count. There must be some
character of the head or of the address. -/
def readUri (head : List Char) (c : Cursor) : Option (List Char × Cursor) := do
  let (uri, after) ← readUriFrom c.ahead [] c
  if head.isEmpty && uri.isEmpty then none else return (head.drop 1 ++ uri, after)

/-- Reads a directive, up to the end of its line. -/
def readDirective (c : Cursor) : Option (Token × Cursor) := do
  let (name, c) := readWhile isAlpha c.skip
  if name.isEmpty || !c.blankOrEnd then none
  else
    let (token, c) ←
      if name == "YAML".toList then do
        let (major, c) ← readNumber c.skipBlanks
        if !c.sees '.' then none
        else
          let (minor, c) ← readNumber c.skip
          pure (Token.version major minor, c)
      else if name == "TAG".toList then do
        let (handle, c) ← readHandle true c.skipBlanks
        if !c.here isBlank then none
        else
          let (stem, c) ← readUri [] c.skipBlanks
          if !c.blankOrEnd then none else pure (Token.tagDirective handle stem, c)
      else none
    let c := c.skipBlanks
    let c := if c.sees '#' then c.skipToBreak else c
    if !c.breakOrEnd then none else return (token, c.skipLine)

/-- Reads the name of an anchor or an alias after its indicator. -/
def readAnchor (c : Cursor) : Option (List Char × Cursor) :=
  match readWhile isAlpha c.skip with
  | ([], _) => none
  | (name, after) =>
    if after.blankOrEnd || after.here ("?:,]\x7d%@".toList ++ [Char.ofNat 0x60]).contains then
      some (name, after)
    else none

/-- Reads a tag. -/
def readTag (c : Cursor) : Option (Token × Cursor) := do
  let (token, after) ←
    if c.startsWith ['!', '<'] then do
      let (uri, after) ← readUri [] (c.skipMany 2)
      if !after.sees '>' then none else pure (Token.tag [] uri, after.skip)
    else do
      let (handle, after) ← readHandle false c
      if handle.length > 1 && handle.getLast? == some '!' then
        let (suffix, after) ← readUri [] after
        pure (Token.tag handle suffix, after)
      else
        let (suffix, after) ← readUri handle after
        pure (if suffix.isEmpty then Token.tag [] ['!'] else Token.tag ['!'] suffix, after)
  if !after.blankOrEnd then none else return (token, after)

/-! ### Finding the next token -/

/-- Closes all blocks before a token that ends or starts a document. -/
def leaveBlocks (s : Scanner) : Option Scanner := do
  let s ← (s.unrollTo (-1)).removeKey
  return { s with keyAllowed := false }

/-- The start of a flow collection. -/
def openFlow (s : Scanner) (t : Token) : Option Scanner := do
  let s ← s.saveKey
  let s := { s with keys := default :: s.keys, flow := s.flow + 1, keyAllowed := true }
  if s.flow > maxNesting then none else return (s.move Cursor.skip).push t

/-- The end of a flow collection. -/
def closeFlow (s : Scanner) (t : Token) : Option Scanner := do
  let s ← s.removeKey
  let s := if s.flow > 0 then { s with flow := s.flow - 1, keys := s.keys.tail } else s
  return ({ s with keyAllowed := false }.move Cursor.skip).push t

/-- A hyphen before an entry of a block. -/
def blockEntry (s : Scanner) : Option Scanner := do
  let s ←
    if s.flow == 0 then
      if !s.keyAllowed then none else s.roll s.cursor.column none .blockSequenceStart
    else some s
  let s ← s.removeKey
  return ({ s with keyAllowed := true }.move Cursor.skip).push .blockEntry

/-- A question mark before a key. -/
def explicitKey (s : Scanner) : Option Scanner := do
  let s ←
    if s.flow == 0 then
      if !s.keyAllowed then none else s.roll s.cursor.column none .blockMappingStart
    else some s
  let s ← s.removeKey
  return ({ s with keyAllowed := s.flow == 0 }.move Cursor.skip).push .key

/-- A colon before a value. When a key was possible, it is one. -/
def valueMark (s : Scanner) : Option Scanner := do
  let k := s.keys.headD default
  let s ←
    if ← s.keyIsValid k then do
      let s := s.insertAt k.token .key
      let s ← s.roll k.column (some k.token) .blockMappingStart
      pure { s with keys := { k with isPossible := false } :: s.keys.tail, keyAllowed := false }
    else do
      let s ←
        if s.flow == 0 then
          if !s.keyAllowed then none else s.roll s.cursor.column none .blockMappingStart
        else some s
      let s := { s with keys := { k with isPossible := false } :: s.keys.tail }
      pure { s with keyAllowed := s.flow == 0 }
  return (s.move Cursor.skip).push .value

/-- A token that may itself be a key, read by `read`. -/
def keyLike (s : Scanner) (read : Cursor → Option (Token × Cursor)) : Option Scanner := do
  let s ← s.saveKey
  let (t, cursor) ← read s.cursor
  return { s with keyAllowed := false, cursor }.push t

/-- A plain scalar. Behind a line break a key may start again. -/
def plainScalar (s : Scanner) : Option Scanner := do
  let s ← s.saveKey
  let (text, broken, cursor) ← readPlain (s.flow > 0) (s.indent + 1).toNat s.cursor
  return { s with keyAllowed := broken, cursor }.push (.scalar text true)

/-- A block scalar. -/
def blockScalar (s : Scanner) (literal : Bool) : Option Scanner := do
  let s ← s.removeKey
  let (text, cursor) ← readBlock literal s.indent s.cursor
  return { s with keyAllowed := true, cursor }.push (.scalar text false)

/-- The characters that cannot start a plain scalar. -/
def isIndicator (c : Char) : Bool :=
  ("-?:,[]\x7b\x7d#&*!|>'\"%@".toList ++ [Char.ofNat 0x60]).contains c

/-- A plain scalar starts here. -/
def startsPlain (s : Scanner) : Bool :=
  let c := s.cursor
  (!c.blankOrEnd && !c.here isIndicator) || (c.sees '-' && !c.blankAt 1) ||
    (s.flow == 0 && (c.sees '?' || c.sees ':') && !c.blankOrEndAt 1)

/-- The token that the characters at the cursor start, other than the marks of documents. -/
def fetchContent (s : Scanner) : Option Scanner :=
  let c := s.cursor
  let inFlow := s.flow > 0
  if c.sees '[' then s.openFlow .flowSequenceStart
  else if c.sees '\x7b' then s.openFlow .flowMappingStart
  else if c.sees ']' then s.closeFlow .flowSequenceEnd
  else if c.sees '\x7d' then s.closeFlow .flowMappingEnd
  else if c.sees ',' then do
    let s ← s.removeKey
    return ({ s with keyAllowed := true }.move Cursor.skip).push .flowEntry
  else if c.sees '-' && c.blankOrEndAt 1 then s.blockEntry
  else if c.sees '?' && (inFlow || c.blankOrEndAt 1) then s.explicitKey
  else if c.sees ':' && (inFlow || c.blankOrEndAt 1) then s.valueMark
  else if c.sees '*' then s.keyLike fun c => (readAnchor c).map fun (n, c) => (.aliasTo n, c)
  else if c.sees '&' then s.keyLike fun c => (readAnchor c).map fun (n, c) => (.anchor n, c)
  else if c.sees '!' then s.keyLike readTag
  else if c.sees '|' && !inFlow then s.blockScalar true
  else if c.sees '>' && !inFlow then s.blockScalar false
  else if c.sees '\'' then
    s.keyLike fun c => (readQuoted true c).map fun (t, c) => (.scalar t false, c)
  else if c.sees '"' then
    s.keyLike fun c => (readQuoted false c).map fun (t, c) => (.scalar t false, c)
  else if s.startsPlain then s.plainScalar
  else none

/-- Makes sure that four characters can be looked at. Where the text is cut off they cannot, and
where the first piece ends its mark is forgotten. -/
def lookAhead (s : Scanner) : Option Scanner :=
  if s.isCut && (s.cursor.rest.drop 3).isEmpty then none
  else if s.cursor.index + 4 > s.marked then some { s with marked := 0 }
  else some s

/-- Finds one more token. -/
def fetch (s : Scanner) : Option Scanner :=
  if !s.started then
    some ({ s with started := true, keys := [default], keyAllowed := true }.push .streamStart)
  else do
    let s ← (s.toNextToken (s.cursor.ahead + 1)).lookAhead
    let s := s.unrollTo s.cursor.column
    let c := s.cursor
    if c.atEnd then do
      let s := s.move fun c =>
        if c.column == 0 then c else { c with column := 0, line := c.line + 1 }
      return (← s.leaveBlocks).push .streamEnd
    else if c.column == 0 && c.sees '%' then do
      let s ← s.leaveBlocks
      let (t, cursor) ← readDirective s.cursor
      return { s with cursor }.push t
    else if c.atDocumentMark then do
      let s ← s.leaveBlocks
      return (s.move (Cursor.skipMany 3)).push (if c.sees '-' then .documentStart else .documentEnd)
    else do
      let s ← s.fetchContent
      if s.isCut && s.cursor.atEnd then none
      else return if s.queue.getLast? == some .blockEntry then s else s.skipLineComment

/-- The token at the head of the queue may still turn out to follow the token of a key. -/
def headIsOpen (s : Scanner) : Option Bool :=
  match s.keys.find? fun k => k.isPossible && k.token == s.taken with
  | some k => s.keyIsValid k
  | none => some false

/-- Finds tokens until there are three in the queue and the first one is certain. -/
def fill : (fuel : Nat) → Scanner → Option Scanner
  | 0, _ => none
  | fuel + 1, s => do
    if s.queue.length > 2 && !(← s.headIsOpen) then return s
    else fill fuel (← s.fetch)

/-- The next token, with the state that knows it. -/
def peek (s : Scanner) : Option (Token × Scanner) := do
  let s ← s.fill (s.cursor.ahead + 8)
  match s.queue with
  | t :: _ => return (t, s)
  | [] => none

/-- Takes the next token. -/
def take (s : Scanner) : Scanner := { s with queue := s.queue.tail, taken := s.taken + 1 }

end Scanner
end Yaml
end ApiDiagrams
