import ApiDiagrams.Text.Utf8

/-!
# JSON

* `Json.Value`: a value, with the members of an object in the order of the text;
* `Json.Value.depth`: how deep arrays and objects are nested;
* `Json.parseFirst?`: the value at the front of a text;
* `Json.parse?`: the value that a text consists of.
-/

namespace ApiDiagrams
namespace Json

/-- A JSON value. A number stays as it is written, and a text remembers whether it was written with
escapes. -/
inductive Value
  | null
  | flag (b : Bool)
  | number (digits : List Char)
  | text (s : String) (escaped : Bool)
  | array (items : List Value)
  | object (members : List (String × Value))
  deriving Inhabited

/-- A blank between tokens. -/
def isBlank (c : Char) : Bool := c == ' ' || c == '\t' || c == '\n' || c == '\r'

/-- The text without the blanks in front. -/
def skipBlanks (text : List Char) : List Char := text.dropWhile isBlank

/-- The number that four hexadecimal digits at the front write, and the rest. -/
def unit? : List Char → Option (Nat × List Char)
  | a :: b :: c :: d :: rest =>
    if [a, b, c, d].all Text.isHexDigit then some (Text.hexNumber [a, b, c, d], rest) else none
  | _ => none

/-- The low half of a character outside the basic plane, written as an escape at the front. -/
def lowUnit? : List Char → Option (Nat × List Char)
  | '\\' :: 'u' :: rest =>
    match unit? rest with
    | some (n, rest) => if 0xDC00 ≤ n && n ≤ 0xDFFF then some (n, rest) else none
    | none => none
  | _ => none

/-- The character of a `\u` escape whose number was read, and the rest. Two halves make one
character, and a half alone is U+FFFD. -/
def escapedUnit (n : Nat) (rest : List Char) : Char × List Char :=
  if 0xD800 ≤ n && n ≤ 0xDBFF then
    match lowUnit? rest with
    | some (m, rest) => (Char.ofNat (0x10000 + (n - 0xD800) * 0x400 + (m - 0xDC00)), rest)
    | none => ('\uFFFD', rest)
  else if 0xDC00 ≤ n && n ≤ 0xDFFF then ('\uFFFD', rest)
  else (Char.ofNat n, rest)

/-- The character of an escape other than `\u`. -/
def simpleEscape? : Char → Option Char
  | '"' => some '"'
  | '\\' => some '\\'
  | '/' => some '/'
  | 'b' => some '\x08'
  | 'f' => some '\x0c'
  | 'n' => some '\n'
  | 'r' => some '\r'
  | 't' => some '\t'
  | _ => none

/-- The characters up to the closing quote, and what follows it. -/
def characters? : (fuel : Nat) → List Char → Option (List Char × List Char)
  | 0, _ => none
  | _ + 1, [] => none
  | _ + 1, '"' :: rest => some ([], rest)
  | fuel + 1, '\\' :: 'u' :: rest => do
    let (n, rest) ← unit? rest
    let (c, rest) := escapedUnit n rest
    let (cs, rest) ← characters? fuel rest
    return (c :: cs, rest)
  | fuel + 1, '\\' :: e :: rest => do
    let c ← simpleEscape? e
    let (cs, rest) ← characters? fuel rest
    return (c :: cs, rest)
  | fuel + 1, c :: rest =>
    if c.toNat < 0x20 || c == '\\' then none
    else (characters? fuel rest).map fun (cs, rest) => (c :: cs, rest)

/-- The digits at the front, at least one, and the rest. -/
def digits? (text : List Char) : Option (List Char × List Char) :=
  match Text.span Text.isDigit text with
  | ([], _) => none
  | r => some r

/-- The whole part of a number: no zeros in front. -/
def whole? : List Char → Option (List Char × List Char)
  | '0' :: rest => some (['0'], rest)
  | text => digits? text

/-- The fraction of a number, possibly empty. -/
def fraction? : List Char → Option (List Char × List Char)
  | '.' :: rest => (digits? rest).map fun (ds, rest) => ('.' :: ds, rest)
  | rest => some ([], rest)

/-- The exponent of a number, possibly empty. -/
def exponent? (text : List Char) : Option (List Char × List Char) :=
  match text with
  | e :: rest =>
    if e == 'e' || e == 'E' then
      match rest with
      | '+' :: rest => (digits? rest).map fun (ds, rest) => (e :: '+' :: ds, rest)
      | '-' :: rest => (digits? rest).map fun (ds, rest) => (e :: '-' :: ds, rest)
      | rest => (digits? rest).map fun (ds, rest) => (e :: ds, rest)
    else some ([], text)
  | [] => some ([], [])

/-- The number at the front. -/
def number? (text : List Char) : Option (List Char × List Char) := do
  let (sign, rest) :=
    match text with
    | '-' :: rest => (['-'], rest)
    | _ => ([], text)
  let (whole, rest) ← whole? rest
  let (fraction, rest) ← fraction? rest
  let (exponent, rest) ← exponent? rest
  return (sign ++ whole ++ fraction ++ exponent, rest)

mutual

/-- The value at the front, and what follows it. -/
def value? : (fuel : Nat) → List Char → Option (Value × List Char)
  | 0, _ => none
  | fuel + 1, text =>
    match skipBlanks text with
    | '{' :: rest =>
      match skipBlanks rest with
      | '}' :: rest => some (.object [], rest)
      | rest => (members? fuel rest).map fun (ms, rest) => (.object ms, rest)
    | '[' :: rest =>
      match skipBlanks rest with
      | ']' :: rest => some (.array [], rest)
      | rest => (items? fuel rest).map fun (vs, rest) => (.array vs, rest)
    | '"' :: rest =>
      (characters? (rest.length + 1) rest).map fun (cs, after) =>
        let written := rest.take (rest.length - after.length)
        (.text (String.ofList cs) (written.contains '\\'), after)
    | 'n' :: 'u' :: 'l' :: 'l' :: rest => some (.null, rest)
    | 't' :: 'r' :: 'u' :: 'e' :: rest => some (.flag true, rest)
    | 'f' :: 'a' :: 'l' :: 's' :: 'e' :: rest => some (.flag false, rest)
    | rest => (number? rest).map fun (ds, rest) => (.number ds, rest)

/-- The items of an array that has some, and what follows it. -/
def items? : (fuel : Nat) → List Char → Option (List Value × List Char)
  | 0, _ => none
  | fuel + 1, text => do
    let (v, rest) ← value? fuel text
    match skipBlanks rest with
    | ',' :: rest =>
      let (vs, rest) ← items? fuel rest
      return (v :: vs, rest)
    | ']' :: rest => return ([v], rest)
    | _ => none

/-- The members of an object that has some, and what follows it. -/
def members? : (fuel : Nat) → List Char → Option (List (String × Value) × List Char)
  | 0, _ => none
  | fuel + 1, text =>
    match skipBlanks text with
    | '"' :: rest => do
      let (key, rest) ← characters? (rest.length + 1) rest
      match skipBlanks rest with
      | ':' :: rest =>
        let (v, rest) ← value? fuel rest
        match skipBlanks rest with
        | ',' :: rest =>
          let (ms, rest) ← members? fuel rest
          return ((String.ofList key, v) :: ms, rest)
        | '}' :: rest => return ([(String.ofList key, v)], rest)
        | _ => none
      | _ => none
    | _ => none

end

mutual

/-- How deep arrays and objects are nested. -/
def Value.depth : Value → Nat
  | .array items => 1 + itemsDepth items
  | .object members => 1 + membersDepth members
  | _ => 0

/-- The depth of the deepest item. -/
def itemsDepth : List Value → Nat
  | [] => 0
  | v :: rest => max v.depth (itemsDepth rest)

/-- The depth of the deepest member. -/
def membersDepth : List (String × Value) → Nat
  | [] => 0
  | (_, v) :: rest => max v.depth (membersDepth rest)

end

/-- Values that are nested deeper are refused. -/
def depthBound : Nat := 10000

/-- The value at the front of a text that is not nested too deep, and what follows it. -/
def front? (text : List Char) : Option (Value × List Char) :=
  (value? (text.length + 1) text).filter fun (v, _) => v.depth ≤ depthBound

/-- The value at the front of a text. What follows it is not looked at. -/
def parseFirst? (bytes : ByteArray) : Option Value :=
  (front? (Text.charsLossy bytes)).map (·.1)

/-- The value that a text consists of. -/
def parse? (bytes : ByteArray) : Option Value :=
  match front? (Text.charsLossy bytes) with
  | some (v, rest) => if (skipBlanks rest).isEmpty then some v else none
  | none => none

end Json
end ApiDiagrams
