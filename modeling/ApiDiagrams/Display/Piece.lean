import ApiDiagrams.Data.Word
import ApiDiagrams.Display.Pen
import ApiDiagrams.Display.Terminal
import ApiDiagrams.Text.Utf8

/-!
# Pieces of styled text

A text for a terminal is cut into pieces: signs, which take columns, and control sequences, which
take none. Of the sequences, those that change the pen and those that set a link matter later.

* `Piece`: the bytes of a piece, its columns and its effect;
* `Piece.all`: the pieces of a text.
-/

namespace ApiDiagrams
namespace Display

/-- Where a sign leads to. -/
structure Link where
  params : List UInt8 := []
  url : List UInt8 := []
  deriving DecidableEq

/-- The text is no link. -/
def Link.isNone (l : Link) : Bool := l.params.isEmpty && l.url.isEmpty

/-- What a piece does besides showing. -/
inductive Piece.Effect
  | none
  | pen (params : List Pen.Param)
  | link (l : Link)

/-- A piece of a text for a terminal. -/
structure Piece where
  bytes : List UInt8
  width : Nat := 0
  effect : Piece.Effect := .none

namespace Piece

/-- The escape byte. -/
def escape : UInt8 := 0x1B

/-- A byte between two, both included. -/
def isWithin (first last : Char) (b : UInt8) : Bool := first.toUInt8 ≤ b && b ≤ last.toUInt8

/-! ### Numbers -/

/-- The word that stands for a number that is not given. -/
def missing : Nat := 2147483647

/-- A word with a further digit. -/
def addDigit (w : Nat) (b : UInt8) : Nat :=
  ((if w == missing then 0 else w) * 10 + (b.toNat - 48)) % Word.count

/-- The number of a word. The low 31 bits count, and a larger word seems bound to the next
number. -/
def paramOf (w : Nat) (colon : Bool) : Pen.Param :=
  let n := w % (missing + 1)
  { value := if n == missing then .none else some n, more := colon || w > missing }

/-- The numbers at the front, between semicolons and colons, and the rest. Nothing at all is no
number. -/
def params : (w : Nat) → List UInt8 → List Pen.Param × List UInt8
  | w, b :: rest =>
    if isWithin '0' '9' b then params (addDigit w b) rest
    else if isWithin ':' ';' b then
      let (ps, after) := params missing rest
      let ps := if ps.isEmpty then [paramOf missing false] else ps
      (paramOf w (b == ':'.toUInt8) :: ps, after)
    else (if w == missing then [] else [paramOf w false], b :: rest)
  | w, [] => (if w == missing then [] else [paramOf w false], [])

/-! ### Data -/

/-- The number of bytes of data at the front with what ends them, and the data. A bell ends only the
data of a system command. -/
def data (isSystem : Bool) : List UInt8 → Nat × List UInt8
  | [] => (0, [])
  | b :: rest =>
    if (b == 0x07 && isSystem) || b == 0x9C then (1, [])
    else if b == 0x18 || b == 0x1A then (0, [])
    else if b == escape then (if rest.head? == some '\\'.toUInt8 then 2 else 0, [])
    else
      let (n, ds) := data isSystem rest
      (n + 1, b :: ds)

/-- The pieces between the semicolons of data. -/
def fields : List UInt8 → List (List UInt8)
  | [] => [[]]
  | b :: rest =>
    if b == ';'.toUInt8 then [] :: fields rest
    else
      match fields rest with
      | f :: fs => (b :: f) :: fs
      | [] => [[b]]

/-- The effect of a system command: number 8 sets a link. -/
def systemEffect (ds : List UInt8) : Effect :=
  let number := ds.takeWhile (isWithin '0' '9')
  let n := number.foldl (fun n b => n * 10 + (b.toNat - 48)) 0
  match fields ds with
  | [_, params, url] =>
    if !number.isEmpty && n == 8 then .link { params, url } else .none
  | _ => .none

/-! ### Sequences -/

/-- The kinds of control sequences, by how they start. -/
inductive Kind
  | control
  | device
  | system
  | message
  deriving DecidableEq

/-- A piece of the first `n` bytes that shows nothing. -/
def silent (bytes : List UInt8) (n : Nat) (effect : Effect) : Piece :=
  { bytes := bytes.take n, effect }

/-- A piece with data behind the first `n` bytes. -/
def withData (bytes : List UInt8) (n : Nat) (isSystem : Bool) : Piece :=
  let (m, ds) := data isSystem (bytes.drop n)
  silent bytes (n + m) (if isSystem then systemEffect ds else .none)

/-- A piece with numbers behind the first `n` bytes. `kind` is what the piece starts as; only
numbers right behind its start, without other signs among them, change the pen. -/
def withParams (bytes : List UInt8) (n : Nat) (kind : Option Kind) : Piece :=
  let body := bytes.drop n
  let marks := body.takeWhile (isWithin '<' '?')
  let (ps, rest) := params missing (body.drop marks.length)
  let inner := rest.takeWhile (isWithin ' ' '/')
  let used := bytes.length - (rest.drop inner.length).length
  match rest.drop inner.length with
  | b :: _ =>
    if isWithin '@' '~' b then
      if kind == some .device then withData bytes (used + 1) false
      else
        let changesPen := kind == some .control && marks.isEmpty && inner.isEmpty &&
          b == 'm'.toUInt8
        silent bytes (used + 1) (if changesPen then .pen ps else .none)
    else silent bytes used .none
  | [] => silent bytes used .none

/-- The piece of a sequence that starts with the escape byte. -/
def escaped (bytes : List UInt8) : Piece :=
  let inner := (bytes.drop 1).takeWhile (isWithin ' ' '/')
  let used := 1 + inner.length
  let kind (k : Kind) : Option Kind := if inner.isEmpty then some k else .none
  match bytes.drop used with
  | b :: _ =>
    if b == '['.toUInt8 then withParams bytes (used + 1) (kind .control)
    else if b == 'P'.toUInt8 then withParams bytes (used + 1) (kind .device)
    else if b == ']'.toUInt8 then withData bytes (used + 1) inner.isEmpty
    else if b == 'X'.toUInt8 || b == '^'.toUInt8 || b == '_'.toUInt8 then
      withData bytes (used + 1) false
    else if isWithin '0' '~' b then silent bytes (used + 1) .none
    else silent bytes used .none
  | [] => silent bytes used .none

/-- The sign that starts with a byte outside ASCII. -/
def sign (bytes : List UInt8) : Piece :=
  match (Text.unitsFrom 0 bytes).map Text.ByteUnit.lossy with
  | c :: text =>
    let s := Text.Sign.first c text
    { bytes := Terminal.bytes s.chars, width := s.width }
  | [] => { bytes }

/-- The piece at the front of bytes that start with `b`. -/
def front (b : UInt8) (rest : List UInt8) : Piece :=
  let bytes := b :: rest
  if b == escape then escaped bytes
  else if b == 0x9B then withParams bytes 1 (some .control)
  else if b == 0x90 then withParams bytes 1 (some .device)
  else if b == 0x9D then withData bytes 1 true
  else if b == 0x98 || b == 0x9E || b == 0x9F then withData bytes 1 false
  else if isWithin ' ' '~' b then { bytes := [b], width := 1 }
  else if b < 0xC0 then { bytes := [b] }
  else sign bytes

/-- The pieces of bytes; `fuel` bounds their number. -/
def allFrom : (fuel : Nat) → List UInt8 → List Piece
  | 0, _ | _, [] => []
  | fuel + 1, b :: rest =>
    let p := front b rest
    p :: allFrom fuel (rest.drop (p.bytes.length - 1))

/-- The pieces of bytes. -/
def all (bytes : List UInt8) : List Piece := allFrom bytes.length bytes

end Piece
end Display
end ApiDiagrams
