import ApiDiagrams.Yaml.Source

/-!
# Reading scalars

The four ways of writing a scalar: plain, between single or double quotes, and as a block. Each
function reads one scalar from a cursor and gives its text and the cursor behind it.

* `readPlain`, `readQuoted`, `readBlock`.
-/

namespace ApiDiagrams
namespace Yaml

/-- What separates two words of a scalar: blanks on a line, or a first line break and more. -/
structure Gap where
  /-- Blanks on the same line, last one first. -/
  blanks : List Char := []
  /-- A line break was passed, or escaped. -/
  broken : Bool := false
  first : List Char := []
  more : List Char := []

/-- The text of a gap: blanks stay, a single line break becomes a space, and of several the first
one is dropped. -/
def Gap.text (g : Gap) : List Char :=
  if g.broken then
    if g.first.head? == some '\n' then if g.more.isEmpty then [' '] else g.more
    else g.first ++ g.more
  else g.blanks.reverse

/-- Reads a gap of blanks and line breaks. In a plain scalar a tab may not stand before the column
`tabLimit` after a line break. -/
def readGap (tabLimit : Option Nat) : (fuel : Nat) → Gap → Cursor → Option (Gap × Cursor)
  | 0, g, c => some (g, c)
  | fuel + 1, g, c =>
    match c.rest with
    | [] => some (g, c)
    | x :: _ =>
      if isBlank x then
        if g.broken && x == '\t' && tabLimit.any (c.column < ·) then none
        else
          let g := if g.broken then g else { g with blanks := x :: g.blanks }
          readGap tabLimit fuel g c.skip
      else if isBreak x then
        let g :=
          if g.broken then { g with more := g.more ++ c.lineBreak }
          else { g with blanks := [], broken := true, first := c.lineBreak }
        readGap tabLimit fuel g c.skipLine
      else some (g, c)

/-! ### Plain scalars -/

/-- The character here ends a plain scalar: a colon before a blank, or in a flow collection one of
its indicators. -/
def endsPlain (flow : Bool) (c : Cursor) : Bool :=
  (c.sees ':' && c.blankOrEndAt 1) ||
    (flow && [',', '?', '[', ']', '\x7b', '\x7d'].any c.sees)

/-- Reads the visible characters of a word; the accumulator holds them last one first. -/
def readPlainWord (flow : Bool) : (fuel : Nat) → List Char → Cursor → List Char × Cursor
  | 0, acc, c => (acc, c)
  | fuel + 1, acc, c =>
    match c.rest with
    | [] => (acc, c)
    | x :: _ =>
      if c.blankOrEnd || endsPlain flow c then (acc, c)
      else readPlainWord flow fuel (x :: acc) c.skip

/-- Reads words and gaps of a plain scalar. `indent` is the least column on further lines. The
result says whether a line break was passed at the end. -/
def readPlainFrom (flow : Bool) (indent : Nat) :
    (fuel : Nat) → (acc : List Char) → (gap : Gap) → Cursor → Option (List Char × Bool × Cursor)
  | 0, _, _, _ => none
  | fuel + 1, acc, gap, c =>
    if c.atDocumentMark || c.sees '#' then some (acc.reverse, gap.broken, c)
    else
      let (word, after) := readPlainWord flow c.ahead [] c
      let (acc, gap) :=
        if word.isEmpty then (acc, gap) else (word ++ gap.text.reverse ++ acc, {})
      if !(after.here isBlank || after.here isBreak) then some (acc.reverse, gap.broken, after)
      else do
        let (gap, after) ← readGap (some indent) after.ahead gap after
        if !flow && after.column < indent then return (acc.reverse, gap.broken, after)
        else readPlainFrom flow indent fuel acc gap after

/-- Reads a plain scalar. -/
def readPlain (flow : Bool) (indent : Nat) (c : Cursor) : Option (List Char × Bool × Cursor) :=
  readPlainFrom flow indent (c.ahead + 1) [] {} c

/-! ### Quoted scalars -/

/-- The character that a letter escape stands for. -/
def letterEscape? (c : Char) : Option Char :=
  match c with
  | '0' => some (Char.ofNat 0)
  | 'a' => some (Char.ofNat 0x07)
  | 'b' => some (Char.ofNat 0x08)
  | 't' | '\t' => some '\t'
  | 'n' => some '\n'
  | 'v' => some (Char.ofNat 0x0B)
  | 'f' => some (Char.ofNat 0x0C)
  | 'r' => some '\r'
  | 'e' => some (Char.ofNat 0x1B)
  | ' ' => some ' '
  | '"' => some '"'
  | '\'' => some '\''
  | '\\' => some '\\'
  | 'N' => some (Char.ofNat 0x85)
  | '_' => some (Char.ofNat 0xA0)
  | 'L' => some (Char.ofNat 0x2028)
  | 'P' => some (Char.ofNat 0x2029)
  | _ => none

/-- The number of digits of a numeric escape. -/
def escapeDigits? (c : Char) : Option Nat :=
  match c with
  | 'x' => some 2
  | 'u' => some 4
  | 'U' => some 8
  | _ => none

/-- Reads the escape after a backslash. -/
def readEscape (c : Cursor) : Option (Char × Cursor) :=
  match c.rest with
  | [] => none
  | x :: rest =>
    match letterEscape? x, escapeDigits? x with
    | some e, _ => some (e, c.skip)
    | none, some n =>
      let digits := rest.take n
      let code := Text.hexNumber digits
      if digits.length == n && digits.all Text.isHexDigit && code ≤ 0x10FFFF &&
          !(0xD800 ≤ code && code ≤ 0xDFFF) then
        some (Char.ofNat code, c.skipMany (n + 1))
      else none
    | none, none => none

/-- Reads the visible characters of a word between quotes. The result says whether an escaped line
break ended it. -/
def readQuotedWord (single : Bool) :
    (fuel : Nat) → (acc : List Char) → Cursor → Option (List Char × Bool × Cursor)
  | 0, _, _ => none
  | fuel + 1, acc, c =>
    match c.rest with
    | [] => some (acc, false, c)
    | x :: rest =>
      if c.blankOrEnd then some (acc, false, c)
      else if single then
        if x == '\'' then
          if rest.head? == some '\'' then readQuotedWord single fuel ('\'' :: acc) c.skip.skip
          else some (acc, false, c)
        else readQuotedWord single fuel (x :: acc) c.skip
      else if x == '"' then some (acc, false, c)
      else if x == '\\' then
        if rest.head?.any isBreak then some (acc, true, c.skip.skipLine)
        else do
          let (e, after) ← readEscape c.skip
          readQuotedWord single fuel (e :: acc) after
      else readQuotedWord single fuel (x :: acc) c.skip

/-- Reads words and gaps up to the closing quote. -/
def readQuotedFrom (single : Bool) :
    (fuel : Nat) → (acc : List Char) → Cursor → Option (List Char × Cursor)
  | 0, _, _ => none
  | fuel + 1, acc, c =>
    if c.atDocumentMark || c.atEnd then none
    else do
      let (acc, escaped, after) ← readQuotedWord single (c.ahead + 1) acc c
      if after.sees (if single then '\'' else '"') then return (acc.reverse, after.skip)
      else
        let (gap, after) ← readGap none after.ahead { broken := escaped } after
        readQuotedFrom single fuel (gap.text.reverse ++ acc) after

/-- Reads a scalar between quotes, from the opening one. -/
def readQuoted (single : Bool) (c : Cursor) : Option (List Char × Cursor) :=
  readQuotedFrom single (c.ahead + 1) [] c.skip

/-! ### Block scalars -/

/-- What happens to the line breaks at the end of a block. -/
inductive Chomping
  | strip
  | clip
  | keep
  deriving DecidableEq

/-- Reads the indicators of a block: how to treat its end, and its indentation relative to its
parent, if given. -/
def readBlockHeader (c : Cursor) : Option (Chomping × Option Nat × Cursor) :=
  let sign? (c : Cursor) : Option Chomping :=
    if c.sees '+' then some .keep else if c.sees '-' then some .strip else none
  let digit? (c : Cursor) : Option Nat :=
    if c.here Text.isDigit then c.rest.head?.map fun x => x.toNat - 48 else none
  match sign? c with
  | some chomping =>
    match digit? c.skip with
    | some 0 => none
    | some n => some (chomping, some n, c.skip.skip)
    | none => some (chomping, none, c.skip)
  | none =>
    match digit? c with
    | some 0 => none
    | some n =>
      match sign? c.skip with
      | some chomping => some (chomping, some n, c.skip.skip)
      | none => some (.clip, some n, c.skip)
    | none => some (.clip, none, c)

/-- Reads indentation and empty lines. `indent` is the indentation if it is known; the result has
the line breaks and the greatest column seen. -/
def readBlockBreaks (indent : Option Nat) :
    (fuel : Nat) → (breaks : List Char) → (widest : Nat) → Cursor →
      Option (List Char × Nat × Cursor)
  | 0, breaks, widest, c => some (breaks, widest, c)
  | fuel + 1, breaks, widest, c =>
    let inside (c : Cursor) : Bool := indent.all (c.column < ·)
    if inside c && c.sees ' ' then readBlockBreaks indent fuel breaks widest c.skip
    else
      let widest := max widest c.column
      if inside c && c.sees '\t' then none
      else if c.here isBreak then
        readBlockBreaks indent fuel (breaks ++ c.lineBreak) widest c.skipLine
      else some (breaks, widest, c)

/-- The lines of a block as they are read: the text so far, last character first, and the breaks
that wait. -/
structure BlockText where
  acc : List Char := []
  first : List Char := []
  more : List Char := []
  /-- The line before starts with a blank. -/
  indented : Bool := false

/-- Reads the lines of a block that stand at its indentation. -/
def readBlockLines (literal : Bool) (indent : Nat) :
    (fuel : Nat) → BlockText → Cursor → Option (BlockText × Cursor)
  | 0, t, c => some (t, c)
  | fuel + 1, t, c =>
    if c.column != indent || c.atEnd then some (t, c)
    else do
      let blank := c.here isBlank
      let joint :=
        if !literal && !t.indented && !blank && t.first.head? == some '\n' then
          if t.more.isEmpty then [' '] else []
        else t.first
      let after := c.skipToBreak
      let line := c.rest.take (after.index - c.index)
      let acc := line.reverse ++ t.more.reverse ++ joint.reverse ++ t.acc
      let first := after.lineBreak
      let next := after.skipLine
      let (more, _, next) ← readBlockBreaks (some indent) (next.ahead + 1) [] 0 next
      readBlockLines literal indent fuel { acc, first, more, indented := blank } next

/-- Reads a block from its indicator. `parent` is the indentation around it. -/
def readBlock (literal : Bool) (parent : Int) (c : Cursor) : Option (List Char × Cursor) := do
  let (chomping, given, c) ← readBlockHeader c.skip
  let c := c.skipBlanks
  let c := if c.sees '#' then c.skipToBreak else c
  if !c.breakOrEnd then none
  else
    let c := c.skipLine
    let known := given.map fun n => if parent ≥ 0 then parent.toNat + n else n
    let (breaks, widest, c) ← readBlockBreaks known (c.ahead + 1) [] 0 c
    let indent := known.getD (max (max widest (parent + 1).toNat) 1)
    let (t, c) ← readBlockLines literal indent (c.ahead + 1) { more := breaks } c
    let tail :=
      match chomping with
      | .strip => []
      | .clip => t.first
      | .keep => t.first ++ t.more
    return (t.acc.reverse ++ tail, c)

end Yaml
end ApiDiagrams
