import ApiDiagrams.Text.Utf8

/-!
# The characters of a YAML stream

A stream is UTF-8, or UTF-16 when it starts with the mark of one of its byte orders. It may hold
tabs, line breaks and visible characters, but no other controls. It is read in pieces, and a piece
with anything else in it cannot be read at all: the text ends before it, and whoever needs more of
the text fails.

* `Source`: the text of a stream as far as it can be read; `Source.read`: the text of bytes;
* `Cursor`: a place in the characters, with its line and column.
-/

namespace ApiDiagrams
namespace Yaml

/-- The character may stand in a stream. -/
def isAllowed (c : Char) : Bool :=
  let n := c.toNat
  n == 0x09 || n == 0x0A || n == 0x0D || (0x20 ≤ n && n ≤ 0x7E) || n == 0x85 ||
    (0xA0 ≤ n && n ≤ 0xFFFD) || 0x10000 ≤ n

/-- The mark that may stand at the start of a stream. -/
def byteOrderMark : Char := '\uFEFF'

/-- An encoding of streams. -/
inductive Encoding
  | utf8
  | utf16 (lowFirst : Bool)

namespace Encoding

/-- The encoding that bytes announce, and the number of bytes of the announcement. -/
def ofBytes : List UInt8 → Encoding × Nat
  | 0xFF :: 0xFE :: _ => (.utf16 true, 2)
  | 0xFE :: 0xFF :: _ => (.utf16 false, 2)
  | 0xEF :: 0xBB :: 0xBF :: _ => (.utf8, 3)
  | _ => (.utf8, 0)

/-- The number of bytes that a character takes, by its first byte. -/
def leadWidth (b : UInt8) : Option Nat :=
  if b &&& 0x80 == 0x00 then some 1
  else if b &&& 0xE0 == 0xC0 then some 2
  else if b &&& 0xF0 == 0xE0 then some 3
  else if b &&& 0xF8 == 0xF0 then some 4
  else none

/-- The 16-bit unit at the front. -/
def unit (lowFirst : Bool) : List UInt8 → Nat
  | a :: b :: _ => if lowFirst then b.toNat * 256 + a.toNat else a.toNat * 256 + b.toNat
  | _ => 0

/-- The unit is the first half of a character outside the basic plane. -/
def isHighHalf (u : Nat) : Bool := 0xD800 ≤ u && u ≤ 0xDBFF

/-- The unit is the second half of a character outside the basic plane. -/
def isLowHalf (u : Nat) : Bool := 0xDC00 ≤ u && u ≤ 0xDFFF

/-- The number of bytes that the character at the front takes, if so many are there. -/
def width (e : Encoding) (bytes : List UInt8) : Nat :=
  match e with
  | .utf8 => (bytes.head?.bind leadWidth).getD 1
  | .utf16 lowFirst =>
    if (bytes.drop 1).isEmpty || !isHighHalf (unit lowFirst bytes) then 2 else 4

/-- The character that all bytes of its width at the front encode. -/
def char? (e : Encoding) (bytes : List UInt8) : Option Char :=
  match e with
  | .utf8 =>
    match bytes with
    | b :: rest =>
      match Text.headUnit b rest with
      | (.char c, _) => some c
      | (.stray _, _) => none
    | [] => none
  | .utf16 lowFirst =>
    let u := unit lowFirst bytes
    let v := unit lowFirst (bytes.drop 2)
    if isLowHalf u then none
    else if isHighHalf u then
      if isLowHalf v then some (Char.ofNat (0x10000 + (u - 0xD800) * 0x400 + (v - 0xDC00)))
      else none
    else some (Char.ofNat u)

end Encoding

/-- The text of a stream as far as it can be read. -/
structure Source where
  text : List Char
  /-- What follows the text cannot be read. -/
  isCut : Bool := false
  /-- The number of characters of the first piece. -/
  opening : Nat := 0

namespace Source

/-- The number of bytes that are read at once. -/
def pieceSize : Nat := 512

/-- What is known of a stream while it is read. -/
structure Progress where
  /-- The characters of the pieces that are complete, last one first. -/
  done : List Char := []
  /-- The characters of the piece that is being read, last one first. -/
  piece : List Char := []
  opening : Option Nat := none

/-- Completes the piece that is being read. -/
def Progress.next (p : Progress) : Progress where
  done := p.piece ++ p.done
  piece := []
  opening := some (p.opening.getD p.piece.length)

/-- The text when reading stops after the pieces that are complete. -/
def Progress.source (p : Progress) (isCut : Bool) : Source where
  text := p.done.reverse
  isCut
  opening := p.opening.getD 0

/-- Reads characters; `room` is the number of bytes that are left in the piece. A character that
does not fit belongs to the next piece. -/
def readFrom (e : Encoding) : (fuel : Nat) → (room : Nat) → Progress → List UInt8 → Source
  | 0, _, p, _ => p.source true
  | _ + 1, _, p, [] => p.next.source false
  | fuel + 1, room, p, b :: rest =>
    let bytes := b :: rest
    let width := e.width bytes
    if width > room then readFrom e fuel pieceSize p.next bytes
    else if (bytes.drop (width - 1)).isEmpty then p.next.source true
    else
      match (e.char? bytes).filter isAllowed with
      | none => p.source true
      | some c =>
        readFrom e fuel (room - width) { p with piece := c :: p.piece } (bytes.drop width)

/-- The text of bytes. -/
def read (bytes : ByteArray) : Source :=
  let bytes := bytes.toList
  let (e, mark) := Encoding.ofBytes bytes
  readFrom e (2 * bytes.length + 1) (pieceSize - mark) {} (bytes.drop mark)

end Source

/-- A space or a tab. -/
def isBlank (c : Char) : Bool := c == ' ' || c == '\t'

/-- A line break: carriage return, line feed, next line, line or paragraph separator. -/
def isBreak (c : Char) : Bool :=
  c == '\r' || c == '\n' || c.toNat == 0x85 || c.toNat == 0x2028 || c.toNat == 0x2029

/-- A letter, a digit, an underscore or a hyphen. -/
def isAlpha (c : Char) : Bool := Text.isWord c || c == '-'

/-- A place in the characters of a stream. -/
structure Cursor where
  rest : List Char
  /-- The number of characters from here on. -/
  ahead : Nat := rest.length
  index : Nat := 0
  line : Nat := 0
  column : Nat := 0
  /-- The line breaks passed since the last visible character. -/
  newlines : Nat := 0

namespace Cursor

/-- The end of the stream. -/
def atEnd (c : Cursor) : Bool := c.rest.isEmpty

/-- The characters from here on start so. -/
def startsWith (c : Cursor) (head : List Char) : Bool := Text.startsWith head c.rest

/-- The character here satisfies `p`. -/
def here (c : Cursor) (p : Char → Bool) : Bool := c.rest.head?.any p

/-- The character here is `x`. -/
def sees (c : Cursor) (x : Char) : Bool := c.rest.head? == some x

/-- A blank, a line break or the end stands `k` characters further. -/
def blankOrEndAt (c : Cursor) (k : Nat) : Bool :=
  match c.rest[k]? with
  | none => true
  | some x => isBlank x || isBreak x

/-- A blank stands `k` characters further. -/
def blankAt (c : Cursor) (k : Nat) : Bool := c.rest[k]?.any isBlank

/-- A line break or the end stands here. -/
def breakOrEnd (c : Cursor) : Bool := c.atEnd || c.here isBreak

/-- A blank, a line break or the end stands here. -/
def blankOrEnd (c : Cursor) : Bool := c.blankOrEndAt 0

/-- One character further on the same line. -/
def skip (c : Cursor) : Cursor :=
  match c.rest with
  | [] => c
  | x :: rest =>
    { c with
      rest, ahead := c.ahead - 1, index := c.index + 1, column := c.column + 1
      newlines := if isBlank x then c.newlines else 0 }

/-- `n` characters further on the same line. -/
def skipMany : Nat → Cursor → Cursor
  | 0, c => c
  | n + 1, c => skipMany n c.skip

/-- At the start of the next line, past a line break of `n` characters. -/
def nextLine (c : Cursor) (n : Nat) (rest : List Char) : Cursor where
  rest
  ahead := c.ahead - n
  index := c.index + n
  line := c.line + 1
  newlines := c.newlines + 1

/-- Past the line break that stands here, if one does. -/
def skipLine (c : Cursor) : Cursor :=
  match c.rest with
  | '\r' :: '\n' :: rest => c.nextLine 2 rest
  | x :: rest => if isBreak x then c.nextLine 1 rest else c
  | [] => c

/-- The line break that stands here, as it is read into a scalar. -/
def lineBreak (c : Cursor) : List Char :=
  match c.rest with
  | x :: _ =>
    if x.toNat == 0x2028 || x.toNat == 0x2029 then [x] else if isBreak x then ['\n'] else []
  | [] => []

/-- Past the characters that satisfy `p`; `fuel` bounds their number. -/
def skipWhile (p : Char → Bool) : (fuel : Nat) → Cursor → Cursor
  | 0, c => c
  | fuel + 1, c => if c.here p then skipWhile p fuel c.skip else c

/-- To the end of the line. -/
def skipToBreak (c : Cursor) : Cursor :=
  c.skipWhile (fun x => !isBreak x) c.ahead

/-- Past spaces and tabs. -/
def skipBlanks (c : Cursor) : Cursor := c.skipWhile isBlank c.ahead

/-- A document mark, `---` or `...`, stands here at the start of a line. -/
def atDocumentMark (c : Cursor) : Bool :=
  c.column == 0 && (c.startsWith ['-', '-', '-'] || c.startsWith ['.', '.', '.']) &&
    c.blankOrEndAt 3

end Cursor
end Yaml
end ApiDiagrams
