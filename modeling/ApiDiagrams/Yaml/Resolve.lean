import ApiDiagrams.Data.Double
import ApiDiagrams.Data.Word
import ApiDiagrams.Text.Base64
import ApiDiagrams.Text.Raw
import ApiDiagrams.Time.Moment

/-!
# What a scalar means

A plain scalar without a tag means null, a truth value, a number, a date or a text, by its looks. A
tag can insist on one of them; a tag that is none of theirs makes the scalar a text.

* `Meaning`, `meaningOf`: the meaning by looks;
* `resolve`: the meaning of a scalar with a tag, if the tag allows it.
-/

namespace ApiDiagrams
namespace Yaml

/-- What a scalar may mean. -/
inductive Meaning
  | null
  | bool (b : Bool)
  | integer (n : Int)
  | float
  | timestamp
  | text
  deriving DecidableEq, Repr

/-- The tag of a meaning. -/
def Meaning.tag : Meaning → String
  | .null => "!!null"
  | .bool _ => "!!bool"
  | .integer _ => "!!int"
  | .float => "!!float"
  | .timestamp => "!!timestamp"
  | .text => "!!str"

/-! ### Numbers -/

/-- A number without its sign, and whether there is one and it is a minus. -/
def sign : List Char → Option Bool × List Char
  | '+' :: rest => (some false, rest)
  | '-' :: rest => (some true, rest)
  | cs => (none, cs)

/-- The number that digits below `base` write, at least one. -/
def numeral? (base : Nat) (digits : List Char) : Option Nat :=
  if !digits.isEmpty && digits.all (fun c => Text.isHexDigit c && Text.hexValue c < base) then
    some (digits.foldl (fun n c => n * base + Text.hexValue c) 0)
  else none

/-- The number with its sign, when it fits a word: a signed word, or an unsigned one if there is no
sign. -/
def fitted? (sign : Option Bool) (n : Nat) : Option Int :=
  match sign with
  | some true => if n ≤ Word.half then some (-(n : Int)) else none
  | some false => if n < Word.half then some n else none
  | none => if n < Word.count then some n else none

/-- The whole number that a text without underscores writes: decimal, or with a mark of its base in
front. A zero before digits is the mark of octal numbers. -/
def markedInteger? (plain : List Char) : Option Int := do
  let (s, digits) := sign plain
  let n ←
    match digits with
    | '0' :: 'x' :: ds | '0' :: 'X' :: ds => numeral? 16 ds
    | '0' :: 'b' :: ds | '0' :: 'B' :: ds => numeral? 2 ds
    | '0' :: 'o' :: ds | '0' :: 'O' :: ds => numeral? 8 ds
    | '0' :: d :: ds => numeral? 8 (d :: ds)
    | ds => numeral? 10 ds
  fitted? s n

/-- The binary or octal number that has its sign behind the mark of its base. -/
def innerSignInteger? (plain : List Char) : Option Int := do
  let (base, digits) ←
    match plain with
    | '0' :: 'b' :: ds => some (2, ds)
    | '0' :: 'o' :: ds => some (8, ds)
    | _ => none
  let (s, digits) := sign digits
  fitted? s (← numeral? base digits)

/-- The whole number that a scalar writes. Underscores do not count. -/
def integer? (text : List Char) : Option Int :=
  let plain := text.filter (· ≠ '_')
  (markedInteger? plain).or (innerSignInteger? plain)

/-- Every underscore stands between two digits; `digit` says that a digit stands in front. -/
def separatesDigits (digit : Bool) : List Char → Bool
  | [] => true
  | '_' :: rest => digit && rest.head?.any Text.isDigit && separatesDigits false rest
  | c :: rest => separatesDigits (Text.isDigit c) rest

/-- A decimal number that a double can hold. Underscores do not count, but in a number that starts
with its point they must stand between digits. -/
def isFloat (text : List Char) : Bool :=
  Double.reads (sign (text.filter (· ≠ '_'))).2 &&
    (text.head? != some '.' || separatesDigits false text)

/-! ### Dates -/

/-- The number of one or two digits at the front, and the rest. -/
def field? (text : List Char) : Option (Nat × List Char) :=
  (Time.digits? 2 text).or (Time.digits? 1 text)

/-- The text after a time of day at the front, with any fraction of a second. -/
def afterClock? (text : List Char) : Option (List Char) := do
  let (h, rest) ← field? text
  let (m, rest) ← field? (← Time.after? ':' rest)
  let (s, rest) ← field? (← Time.after? ':' rest)
  if h < 24 && m < 60 && s < 60 then return (Time.fraction rest).2 else none

/-- The text after a date at the front. The year has four digits. -/
def afterDate? (text : List Char) : Option (List Char) := do
  let (y, rest) ← Time.digits? 4 text
  let (m, rest) ← field? (← Time.after? '-' rest)
  let (d, rest) ← field? (← Time.after? '-' rest)
  if 1 ≤ m && m ≤ 12 && 1 ≤ d && d ≤ Time.daysOfMonth y m then return rest else none

/-- A date; with a time of day behind a letter and a zone; or with a time of day behind spaces. -/
def isTimestamp (text : List Char) : Bool :=
  match afterDate? text with
  | none => false
  | some [] => true
  | some (c :: rest) =>
    if c == 'T' || c == 't' then
      match afterClock? rest >>= Time.zone? with
      | some (_, rest) => rest.isEmpty
      | none => false
    else c == ' ' && afterClock? (rest.dropWhile (· == ' ')) == some []

/-! ### Scalars -/

/-- The meaning of a plain scalar by its looks. -/
def meaningOf (s : String) : Meaning :=
  if ["", "~", "null", "Null", "NULL"].contains s then .null
  else if ["true", "True", "TRUE"].contains s then .bool true
  else if ["false", "False", "FALSE"].contains s then .bool false
  else if [".nan", ".NaN", ".NAN", ".inf", ".Inf", ".INF", "+.inf", "+.Inf", "+.INF", "-.inf",
      "-.Inf", "-.INF"].contains s then .float
  else
    let cs := s.toList
    let numeric (c : Char) : Bool := Text.isDigit c || c == '+' || c == '-'
    if cs.head?.any numeric then
      if isTimestamp cs then .timestamp
      else
        match integer? cs with
        | some n => .integer n
        | none => if isFloat cs then .float else .text
    else if cs.head? == some '.' && isFloat cs then .float
    else .text

/-- The tags that insist on a meaning other than a text. -/
def meaningTags : List String := ["!!null", "!!bool", "!!int", "!!float", "!!timestamp"]

/-- The meaning of a scalar with a tag, and its text. Nothing when the tag contradicts the looks. A
whole number is a float too, if it fits a signed word. -/
def resolve (tag s : String) : Option (Meaning × Text.Raw) :=
  if tag = "!!binary" then
    (Text.decodeBase64? s.toList).map fun bytes => (.text, Text.Raw.ofBytes bytes)
  else if !meaningTags.contains tag then some (.text, s)
  else
    let m := meaningOf s
    let agrees :=
      match m with
      | .integer n => tag = m.tag || (tag = "!!float" && n < Word.half)
      | _ => tag = m.tag
    if agrees then some (m, s) else none

end Yaml
end ApiDiagrams
