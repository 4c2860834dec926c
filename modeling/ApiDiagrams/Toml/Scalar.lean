import ApiDiagrams.Data.Double
import ApiDiagrams.Data.Word
import ApiDiagrams.Time.Moment
import ApiDiagrams.Toml.Value

/-!
# Strings, numbers and dates of TOML

Each reader takes the text from the front of what follows and gives the rest.

* `basicString?`, `literalString?`, `multilineString?`: the kinds of strings;
* `number?`: integers, floats and dates, which start alike.
-/

namespace ApiDiagrams
namespace Toml

/-- A blank within a line. -/
def isBlank (c : Char) : Bool := c == ' ' || c == '\t'

/-- A character of a line end. -/
def isLineEnd (c : Char) : Bool := c == '\n' || c == '\r'

/-- The text without the blanks in front. -/
def skipBlanks (text : List Char) : List Char := text.dropWhile isBlank

/-! ### Strings -/

/-- The character of a numbered escape, and the rest. -/
def numbered? (width : Nat) (text : List Char) : Option (Char × List Char) :=
  let ds := text.take width
  let n := Text.hexNumber ds
  let isCharacter := n ≤ 0x10FFFF && !(0xD800 ≤ n && n ≤ 0xDFFF)
  if ds.length == width && ds.all Text.isHexDigit && isCharacter then
    some (Char.ofNat n, text.drop width)
  else none

/-- The character after a backslash, for the escapes of one letter. -/
def simpleEscape? : Char → Option Char
  | 'b' => some '\x08'
  | 't' => some '\t'
  | 'n' => some '\n'
  | 'f' => some '\x0c'
  | 'r' => some '\r'
  | '"' => some '"'
  | '\\' => some '\\'
  | _ => none

/-- The text with its escapes replaced. In a string of several lines a backslash at the end of a
line swallows all blanks and line ends up to the next other character. -/
def unescape? (multiline : Bool) : (fuel : Nat) → List Char → Option (List Char)
  | _, [] => some []
  | 0, _ => none
  | fuel + 1, '\\' :: rest =>
    let (gap, after) := Text.span (fun c => isBlank c || isLineEnd c) rest
    if gap.contains '\n' && multiline then unescape? multiline fuel after
    else if !gap.isEmpty then none
    else
      match rest with
      | 'u' :: rest => do
        let (c, rest) ← numbered? 4 rest
        return c :: (← unescape? multiline fuel rest)
      | 'U' :: rest => do
        let (c, rest) ← numbered? 8 rest
        return c :: (← unescape? multiline fuel rest)
      | e :: rest => do
        let c ← simpleEscape? e
        return c :: (← unescape? multiline fuel rest)
      | [] => none
  | fuel + 1, c :: rest => do return c :: (← unescape? multiline fuel rest)

/-- The raw text up to the closing quote on the same line, and what follows it. -/
def lineUpTo? (quote : Char) (escapes : Bool) : List Char → Option (List Char × List Char)
  | [] => none
  | c :: rest =>
    if c == quote then some ([], rest)
    else if isLineEnd c then none
    else if escapes && c == '\\' then
      match rest with
      | d :: rest => (lineUpTo? quote escapes rest).map fun (cs, rest) => (c :: d :: cs, rest)
      | [] => none
    else (lineUpTo? quote escapes rest).map fun (cs, rest) => (c :: cs, rest)

/-- What follows two quotes at the front. -/
def afterTwo? (quote : Char) : List Char → Option (List Char)
  | a :: b :: more => if a == quote && b == quote then some more else none
  | _ => none

/-- No further quote may come: two were read before, and the first of them was not escaped. -/
def isFull (quote : Char) (escapes : Bool) (done : List Char) : Bool :=
  done.take 2 == [quote, quote] && !(escapes && (done.drop 2).head? == some '\\')

/-- The raw text up to three closing quotes, and what follows them; `done` is what was read, last
character first. Up to two quotes may stand before the closing ones. -/
def blockUpTo? (quote : Char) (escapes : Bool) : (done text : List Char) →
    Option (List Char × List Char)
  | _, [] => none
  | done, c :: rest =>
    if escapes && c == '\\' then
      match rest with
      | d :: tail => blockUpTo? quote escapes (d :: c :: done) tail
      | [] => none
    else if c == quote then
      match afterTwo? quote rest with
      | some more =>
        if more.head? == some quote then
          if isFull quote escapes done then none else blockUpTo? quote escapes (c :: done) rest
        else some (done.reverse, more)
      | none => blockUpTo? quote escapes (c :: done) rest
    else blockUpTo? quote escapes (c :: done) rest

/-- The text without a line end at its front. -/
def dropFirstLineEnd : List Char → List Char
  | '\n' :: rest | '\r' :: '\n' :: rest => rest
  | text => text

/-- A string in double quotes, after the opening one. -/
def basicString? (text : List Char) : Option (String × List Char) := do
  let (raw, rest) ← lineUpTo? '"' true text
  return (String.ofList (← unescape? false raw.length raw), rest)

/-- A string in single quotes, after the opening one. -/
def literalString? (text : List Char) : Option (String × List Char) := do
  let (raw, rest) ← lineUpTo? '\'' false text
  return (String.ofList raw, rest)

/-- A string in three double quotes, after the opening ones. -/
def basicBlock? (text : List Char) : Option (String × List Char) := do
  let (raw, rest) ← blockUpTo? '"' true [] text
  let raw := dropFirstLineEnd raw
  return (String.ofList (← unescape? true raw.length raw), rest)

/-- A string in three single quotes, after the opening ones. -/
def literalBlock? (text : List Char) : Option (String × List Char) := do
  let (raw, rest) ← blockUpTo? '\'' false [] text
  return (String.ofList (dropFirstLineEnd raw), rest)

/-! ### Numbers and dates -/

/-- Every underscore stands between digits, and the last character is a digit. Letters that can be
digits count as such. -/
def underscoresOk (text : List Char) : Bool :=
  let step (s : Bool × Bool) (c : Char) : Bool × Bool :=
    (s.1 && !(c == '_' && !s.2), Text.isHexDigit c)
  let (ok, last) := text.foldl step (true, false)
  ok && last

/-- A zero stands in front of other digits. -/
def hasLeadingZero (text : List Char) : Bool :=
  match text with
  | '0' :: c :: _ => c != 'b' && c != 'o' && c != 'x'
  | sign :: '0' :: _ :: _ => sign == '+' || sign == '-'
  | _ => false

/-- The number that digits of a base write. -/
def numberIn (base : Nat) (digits : List Char) : Nat :=
  digits.foldl (fun n c => n * base + Text.hexValue c) 0

/-- The integer that a text writes; it must fit a signed 64-bit word. -/
def integer? (text : List Char) : Option Int := do
  if !underscoresOk text || hasLeadingZero text then none
  let plain := text.filter (· ≠ '_')
  let (negative, digits) :=
    match plain with
    | '-' :: ds => (true, ds)
    | '+' :: ds => (false, ds)
    | ds => (false, ds)
  let n :=
    match digits with
    | '0' :: 'x' :: ds => numberIn 16 ds
    | '0' :: 'o' :: ds => numberIn 8 ds
    | '0' :: 'b' :: ds => numberIn 2 ds
    | ds => numberIn 10 ds
  if negative then if n ≤ Word.half then some (-(n : Int)) else none
  else if n < Word.half then some n
  else none

/-- The parts of a float between points and exponent marks. -/
def floatParts (text : List Char) : List (List Char) :=
  let isMark (c : Char) : Bool := c == '.' || c == 'e' || c == 'E'
  (Text.splitOn '.' (text.map fun c => if isMark c then '.' else c)).filter (· ≠ [])

/-- Every point is followed by a digit. -/
def pointsOk : List Char → Bool
  | [] => true
  | '.' :: rest => (rest.head?.map Text.isDigit).getD false && pointsOk rest
  | _ :: rest => pointsOk rest

/-- The text writes a float that a double can hold. -/
def isFloat (text : List Char) : Bool :=
  let parts := floatParts text
  let plain := text.filter (· ≠ '_')
  let body :=
    match plain with
    | '-' :: cs | '+' :: cs => cs
    | cs => cs
  if body == "inf".toList || body == "nan".toList then true
  else
    parts.all underscoresOk && !((parts.head?.map hasLeadingZero).getD false) && pointsOk text &&
      (body.head?.map Text.isDigit).getD false && Double.reads body

/-- A time of day with two digits for the hour. -/
def isClock (text : List Char) : Bool :=
  (Time.digits? 2 text).isSome &&
    match Time.clock? text with
    | some (_, rest) => rest.isEmpty
    | none => false

/-- The text writes a date, a time of day, or both, the latter possibly with a zone. -/
def isDate (text : List Char) : Bool :=
  let text := text.map fun c => if c == 'z' then 'Z' else if c == 't' || c == ' ' then 'T' else c
  isClock text ||
    match Time.date? text with
    | some (_, []) => true
    | some (_, 'T' :: rest) =>
      isClock rest ||
        ((Time.digits? 2 rest).isSome &&
          match Time.clock? rest with
          | some (_, zone) =>
            match Time.zone? zone with
            | some (_, rest) => rest.isEmpty
            | none => false
          | none => false)
    | _ => false

/-- A character of a date. -/
def isDateChar (c : Char) : Bool := Text.isDigit c || "-:Tt .Zz+".toList.contains c

/-- A character of a float. -/
def isFloatChar (c : Char) : Bool := Text.isDigit c || "_.-+eE".toList.contains c

/-- The rest of a decimal number whose first characters were read. -/
def decimal? (front text : List Char) : Option (Value × List Char) :=
  let (ds, rest) := Text.span (fun c => Text.isDigit c || c == '_') text
  match rest with
  | c :: _ =>
    if c == '.' || c == 'e' || c == 'E' then
      let (more, rest) := Text.span isFloatChar rest
      if isFloat (front ++ ds ++ more) then some (.float, rest) else none
    else (integer? (front ++ ds)).map fun n => (.integer n, rest)
  | [] => (integer? (front ++ ds)).map fun n => (.integer n, rest)

/-- An integer with a mark of its base in front; the mark was read. -/
def based? (mark : Char) (isDigitOf : Char → Bool) (text : List Char) :
    Option (Value × List Char) :=
  if (text.head?.map isDigitOf).getD false then
    let (ds, rest) := Text.span (fun c => isDigitOf c || c == '_') text
    (integer? ('0' :: mark :: ds)).map fun n => (.integer n, rest)
  else none

/-- The number or the date at the front of a text that starts with a digit or a sign. -/
def number? (text : List Char) : Option (Value × List Char) :=
  match text with
  | '0' :: 'x' :: rest => based? 'x' Text.isHexDigit rest
  | '0' :: 'o' :: rest => based? 'o' (fun c => '0' ≤ c && c ≤ '7') rest
  | '0' :: 'b' :: rest => based? 'b' (fun c => c == '0' || c == '1') rest
  | c :: rest =>
    if c == '+' || c == '-' then
      match rest with
      | 'i' :: 'n' :: 'f' :: rest | 'n' :: 'a' :: 'n' :: rest => some (.float, rest)
      | '0' :: 'x' :: _ | '0' :: 'o' :: _ | '0' :: 'b' :: _ => none
      | d :: _ => if Text.isDigit d then decimal? [c] rest else none
      | [] => none
    else
      match (text.dropWhile Text.isDigit).head? with
      | some mark =>
        if mark == '-' || mark == ':' then
          let (cs, rest) := Text.span isDateChar text
          if isDate (Text.dropTrailing isBlank cs) then some (.date, rest) else none
        else decimal? [] text
      | none => decimal? [] text
  | [] => none

end Toml
end ApiDiagrams
