import ApiDiagrams.Text.Raw

/-!
# Files of variables

A file of variables has lines such as `NAME=value`. A value may be in quotes, and may refer to the
variables above it as `$NAME`. Nothing promises that the file is valid UTF-8: a value in quotes
keeps its stray bytes, in any other value they become U+FFFD.

* `Variables.parse?`: the variables of a file, the latest first;
* `Variables.settable`: the variables that an environment takes.
-/

namespace ApiDiagrams
namespace Variables

open Text (ByteUnit Raw)

/-- A blank that does not end a line. -/
def isBlank (c : Char) : Bool :=
  c == '\t' || c == '\x0b' || c == '\x0c' || c == '\r' || c == ' ' || c.toNat == 0x85 ||
    c.toNat == 0xA0

/-- A byte that a name may have: a letter or a number when taken for a character, an underscore, a
point, or a blank. -/
def isNameByte (b : UInt8) : Bool :=
  let n := b.toNat
  let c := Char.ofNat n
  Text.isWord c || c == '.' || isBlank c || n == 0xAA || n == 0xB5 || n == 0xBA || n == 0xB2 ||
    n == 0xB3 || n == 0xB9 || (0xBC ≤ n && n ≤ 0xBE) || (0xC0 ≤ n && n != 0xD7 && n != 0xF7)

/-- A character that satisfies `p`. -/
def isChar (p : Char → Bool) : ByteUnit → Bool
  | .char c => p c
  | .stray _ => false

/-- Line ends of two characters become line feeds. -/
def unifyLines : List ByteUnit → List ByteUnit
  | .char '\r' :: .char '\n' :: rest => .char '\n' :: unifyLines rest
  | u :: rest => u :: unifyLines rest
  | [] => []

/-- The text from the next line that is neither blank nor a comment. -/
def skipToName : (fuel : Nat) → List ByteUnit → List ByteUnit
  | 0, text => text
  | fuel + 1, text =>
    match text.dropWhile ByteUnit.isBlank with
    | .char '#' :: rest => skipToName fuel (rest.dropWhile (· ≠ .char '\n'))
    | rest => rest

/-- The longest run of units satisfying `p` at the front, and the rest. -/
def cut (p : ByteUnit → Bool) (text : List ByteUnit) : List ByteUnit × List ByteUnit :=
  (text.takeWhile p, text.dropWhile p)

/-- The word that may stand before a name. -/
def exportWord : List ByteUnit := (Raw.ofString "export").units

/-- The text without the word that may stand before a name. -/
def dropExport (text : List ByteUnit) : List ByteUnit :=
  if exportWord.isPrefixOf text then
    match text.drop exportWord.length with
    | u :: rest => if isChar isBlank u then rest.dropWhile (isChar isBlank) else text
    | [] => text
  else text

/-- The text without the units satisfying `p` at its end. -/
def dropTrailing (p : ByteUnit → Bool) (text : List ByteUnit) : List ByteUnit :=
  (text.reverse.dropWhile p).reverse

/-- The name at the front, and what follows its mark. At the end of the text there need be no mark,
and then all is the value of the empty name. -/
def name? (text : List ByteUnit) : Option (List ByteUnit × List ByteUnit) :=
  let (name, rest) := cut (fun u => u.bytes.all isNameByte) text
  match rest with
  | [] => if text.isEmpty then none else some ([], text.dropWhile (isChar isBlank))
  | mark :: rest =>
    if mark = .char '=' || mark = .char ':' then
      some (dropTrailing ByteUnit.isBlank name, rest.dropWhile (isChar isBlank))
    else none

/-- A character of a variable that a value refers to. -/
def isReferenceChar (c : Char) : Bool := Text.isUpper c || Text.isDigit c || c == '_'

/-- The text without a character that may stand at the front. -/
def dropOne (c : Char) (text : List ByteUnit) : List ByteUnit :=
  if text.head? = some (.char c) then text.tail else text

/-- The name of a reference after its dollar sign, and what follows the reference. -/
def reference (text : List ByteUnit) : List ByteUnit × List ByteUnit :=
  let (name, rest) := cut (isChar isReferenceChar) (dropOne '\x7b' (dropOne '(' text))
  (name, dropOne '\x7d' rest)

/-- Variables with their values. -/
abbrev Bindings := List (String × Raw)

/-- The text with its references replaced by the values of variables. A reference after a backslash
stays, without the backslash; a dollar sign without a name stays. -/
def expand (vars : Bindings) : (fuel : Nat) → List ByteUnit → List ByteUnit
  | 0, text => text
  | _, [] => []
  | fuel + 1, .char '\\' :: .char '$' :: rest =>
    let (_, after) := reference rest
    .char '$' :: rest.take (rest.length - after.length) ++ expand vars fuel after
  | fuel + 1, .char '$' :: rest =>
    let (name, after) := reference rest
    let replaced :=
      if name.isEmpty then .char '$' :: rest.take (rest.length - after.length)
      else ((vars.lookup (Raw.mk name).lossy).getD "").units
    replaced ++ expand vars fuel after
  | fuel + 1, u :: rest => u :: expand vars fuel rest

/-- The text with `\n` and `\r` replaced by line ends. -/
def lineEscapes : List ByteUnit → List ByteUnit
  | .char '\\' :: .char 'n' :: rest => .char '\n' :: lineEscapes rest
  | .char '\\' :: .char 'r' :: rest => .char '\r' :: lineEscapes rest
  | .char '\\' :: .char '\n' :: rest => .char '\\' :: .char '\n' :: lineEscapes rest
  | .char '\\' :: u :: rest => .char '\\' :: u :: lineEscapes rest
  | u :: rest => u :: lineEscapes rest
  | [] => []

/-- The text without the backslashes before characters other than a dollar sign. -/
def dropEscapes : List ByteUnit → List ByteUnit
  | .char '\\' :: .char '$' :: rest => .char '\\' :: .char '$' :: dropEscapes rest
  | .char '\\' :: u :: rest => u :: dropEscapes rest
  | u :: rest => u :: dropEscapes rest
  | [] => []

/-- The characters before a comment, which starts with a number sign after a blank. The last such
sign counts. -/
def beforeComment (chars : List Char) : List Char :=
  let marks := (List.range chars.length).filter fun i =>
    chars[i]? == some '#' && i > 0 && (chars[i - 1]?.map isBlank).getD false
  match marks.getLast? with
  | some i => chars.take i
  | none => chars

/-- The raw text up to the closing quote, which has no backslash in front, and what follows it;
`last` is the unit before. -/
def upToQuote? (quote : Char) : (last : ByteUnit) → List ByteUnit →
    Option (List ByteUnit × List ByteUnit)
  | _, [] => none
  | last, u :: rest =>
    if u = .char quote && last ≠ .char '\\' then some ([], rest)
    else (upToQuote? quote u rest).map fun (us, rest) => (u :: us, rest)

/-- The value in quotes at the front of a text, without the quotes, and what follows it. -/
def quoted? (quote : Char) (text : List ByteUnit) : Option (List ByteUnit × List ByteUnit) :=
  let isQuote (u : ByteUnit) : Bool := u = .char quote
  (upToQuote? quote (.char quote) text).map fun (us, rest) =>
    (dropTrailing isQuote (us.dropWhile isQuote), rest)

/-- The value at the front, and what follows it. -/
def value? (vars : Bindings) (text : List ByteUnit) : Option (List ByteUnit × List ByteUnit) :=
  match text with
  | .char '\'' :: rest => quoted? '\'' rest
  | .char '"' :: rest =>
    (quoted? '"' rest).map fun (us, rest) =>
      let plain := dropEscapes (lineEscapes us)
      (expand vars plain.length plain, rest)
  | _ =>
    let (line, rest) := cut (fun u => u ≠ .char '\n' && u ≠ .char '\r') text
    let plain := Text.dropTrailing isBlank
      ((beforeComment (line.map ByteUnit.lossy)).dropWhile isBlank)
    some (expand vars plain.length (plain.map .char), rest)

/-- The variables of a text, put before those that were read; the latest first. -/
def parseFrom? : (fuel : Nat) → Bindings → List ByteUnit → Option Bindings
  | 0, _, _ => none
  | fuel + 1, vars, text =>
    match skipToName text.length text with
    | [] => some vars
    | text => do
      let (name, rest) ← name? (dropExport text)
      let (value, rest) ← value? vars rest
      parseFrom? fuel (((Raw.mk name).lossy, ⟨value⟩) :: vars) rest

/-- The variables of a file, the latest first. -/
def parse? (bytes : ByteArray) : Option Bindings :=
  let text := unifyLines (Text.units bytes)
  parseFrom? (text.length + 1) [] text

/-- The variables that an environment takes: those whose latest value has no zero byte. -/
def settable (vars : Bindings) : Bindings :=
  vars.filter fun (name, _) =>
    (vars.lookup name).all fun value => !value.units.any (isChar (·.toNat = 0))

end Variables
end ApiDiagrams
