import ApiDiagrams.Display.Piece

/-!
# Breaking lines

* `Wrap.lines`: a text broken at blanks and hyphens, and inside words that are too long. Where a
  line is broken the pen and the link are put down, and taken up again on the next line;
* `Wrap.height`: the number of lines that a table reserves for a text, which counts controls as if
  they took a column.
-/

namespace ApiDiagrams
namespace Display
namespace Wrap

/-- A text that is being broken into lines: what is done, the last word, the blanks before it, and
the columns of the line so far without either. -/
structure State where
  /-- What is done, last byte first. -/
  done : List UInt8 := []
  /-- The columns of the line. -/
  column : Nat := 0
  /-- The number of blanks before the last word. -/
  blanks : Nat := 0
  /-- The last word, last byte first. -/
  word : List UInt8 := []
  wordWidth : Nat := 0
  pen : Pen := {}
  link : Link := {}
  /-- The pen after the last word that is done. -/
  linePen : Pen := {}
  /-- The link after the last word that is done. -/
  lineLink : Link := {}

namespace State

/-- Writes bytes. -/
def write (s : State) (bytes : List UInt8) : State := { s with done := bytes.reverse ++ s.done }

/-- Puts the blanks on the line. -/
def placeBlanks (s : State) : State :=
  { s.write (List.replicate s.blanks ' '.toUInt8) with column := s.column + s.blanks, blanks := 0 }

/-- Puts the last word on the line, after the blanks before it. -/
def placeWord (s : State) : State :=
  if s.word.isEmpty then s
  else
    let s := s.placeBlanks
    { s with
      done := s.word ++ s.done, column := s.column + s.wordWidth, word := [], wordWidth := 0
      linePen := s.pen, lineLink := s.link }

/-- The sequence that sets a link. -/
def linkBytes (l : Link) : List UInt8 :=
  "\x1b]8;".toUTF8.toList ++ l.params ++ [';'.toUInt8] ++ l.url ++ [0x07]

/-- Starts a line. Blanks at the end of the last one are lost. -/
def breakLine (s : State) : State :=
  let pen := s.linePen
  let link := s.lineLink
  let s := if pen.isPlain then s else s.write Pen.plainSequence.toUTF8.toList
  let s := if link.isNone then s else s.write (linkBytes {})
  let s := s.write ['\n'.toUInt8]
  let s := if link.isNone then s else s.write (linkBytes link)
  let s := if pen.isPlain then s else s.write pen.sequence.toUTF8.toList
  { s with column := 0, blanks := 0 }

/-- Ends a line. Blanks at its end stay when they fit. -/
def endLine (limit : Nat) (s : State) : State :=
  let s :=
    if s.wordWidth ≠ 0 then s
    else if s.column + s.blanks > limit then { s with column := 0, blanks := 0 }
    else { s.write (List.replicate s.blanks ' '.toUInt8) with blanks := 0 }
  s.placeWord

/-- Adds a sign to the last word. -/
def addSign (limit : Nat) (s : State) (p : Piece) : State :=
  let s := if s.wordWidth + p.width > limit then s.placeWord else s
  let s := { s with word := p.bytes.reverse ++ s.word, wordWidth := s.wordWidth + p.width }
  if s.column + s.wordWidth + s.blanks > limit then s.breakLine else s

/-- Takes a piece that shows nothing. -/
def addSilent (limit : Nat) (s : State) (p : Piece) : State :=
  if p.bytes == ['\n'.toUInt8] then (s.endLine limit).breakLine
  else
    let s :=
      match p.effect with
      | .none => s
      | .pen ps => { s with pen := s.pen.read ps }
      | .link l => { s with link := l }
    { s with word := p.bytes.reverse ++ s.word }

/-- Takes the next piece. -/
def step (limit : Nat) (s : State) (p : Piece) : State :=
  if p.width = 0 then s.addSilent limit p
  else if p.bytes == [' '.toUInt8] && s.pen.hidesBlanks then
    let s := s.placeWord
    { s with blanks := s.blanks + 1 }
  else if p.bytes == ['-'.toUInt8] then
    let s := s.placeBlanks
    if s.column + s.wordWidth + 1 ≤ limit then
      let s := s.placeWord.write p.bytes
      { s with column := s.column + 1 }
    else s.addSign limit p
  else s.addSign limit p

end State

/-- The text broken into lines of at most `limit` columns. -/
def lines (limit : Nat) (text : List Char) : List Char :=
  if limit = 0 then text
  else
    let s := ((Piece.all (Terminal.bytes text)).foldl (State.step limit) {}).endLine limit
    Text.charsLossy ⟨s.done.reverse.toArray⟩

/-! ### Heights -/

/-- What is known of a text while its line breaks are counted. -/
structure Count where
  breaks : Nat := 0
  column : Nat := 0
  blanks : Nat := 0
  hasWord : Bool := false
  wordWidth : Nat := 0

namespace Count

/-- Puts the last word on the line, after the blanks before it. -/
def placeWord (s : Count) : Count :=
  if !s.hasWord then s
  else
    { s with
      column := s.column + s.blanks + s.wordWidth, blanks := 0, hasWord := false, wordWidth := 0 }

/-- Starts a line. -/
def breakLine (s : Count) : Count := { s with breaks := s.breaks + 1, column := 0, blanks := 0 }

/-- Starts a line when the last one is too long. -/
def settle (limit : Nat) (s : Count) : Count :=
  if s.column + s.wordWidth + s.blanks > limit then s.breakLine else s

/-- Adds columns to the last word. -/
def widen (s : Count) (w : Nat) : Count :=
  { s with hasWord := true, wordWidth := s.wordWidth + w }

/-- Takes blanks. -/
def addBlanks (s : Count) (w : Nat) : Count :=
  let s := s.placeWord
  { s with blanks := s.blanks + w }

/-- Takes a hyphen. -/
def addHyphen (limit : Nat) (s : Count) : Count :=
  let s := { s with column := s.column + s.blanks, blanks := 0 }
  if s.column + s.wordWidth ≥ limit then s.widen 1
  else
    let s := s.placeWord
    { s with column := s.column + 1 }

/-- Takes a byte that shows, or a control. -/
def addByte (limit : Nat) (s : Count) (b : UInt8) : Count :=
  let c := Char.ofNat b.toNat
  if Text.isBlank c then s.addBlanks 1
  else if c == '-' then s.addHyphen limit
  else
    let s := if s.column == limit then s.breakLine else s
    let s := s.widen 1
    let s := if s.wordWidth == limit then s.placeWord else s
    s.settle limit

/-- Takes a sign. -/
def addSign (limit : Nat) (s : Count) (sign : Text.Sign) : Count :=
  if sign.chars.head?.any fun c => Text.isBlank c && c.toNat != 0xA0 then s.addBlanks sign.width
  else
    let s := if s.wordWidth + sign.width > limit then s.placeWord else s
    (s.widen sign.width).settle limit

/-- Takes the next item. -/
def step (limit : Nat) (s : Count) : Terminal.Item → Count
  | .sign sign => s.addSign limit sign
  | .byte b .print | .byte b .execute => s.addByte limit b
  | .byte _ _ => { s with hasWord := true }

end Count

/-- The number of lines that a table reserves for a line of text. -/
def lineHeight (limit : Nat) (line : List Char) : Nat :=
  1 + ((Terminal.items line.length .ground line).foldl (Count.step limit) {}).breaks

/-- The number of lines that a table reserves for a text. -/
def height (limit : Nat) (ls : List (List Char)) : Nat :=
  if limit = 0 then 1 else ls.foldl (fun n line => n + lineHeight limit line) 0

end Wrap
end Display
end ApiDiagrams
