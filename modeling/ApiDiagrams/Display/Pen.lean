import ApiDiagrams.Text.Ascii

/-!
# Pens

What a terminal writes with: colours, weight, underline. A control sequence changes the pen by a
list of numbers.

* `Pen`: the state; `Pen.Param`: a number of a sequence;
* `Pen.read`: the pen after a sequence;
* `Pen.sequence`: the sequence that gives a pen.
-/

namespace ApiDiagrams
namespace Display

/-- A colour. -/
inductive Color
  /-- One of the sixteen that have names. -/
  | named (n : Nat)
  | indexed (n : Nat)
  | rgb (r g b : Nat)
  deriving DecidableEq, Repr

/-- An attribute of a pen. -/
inductive Attr
  | bold
  | faint
  | italic
  | slowBlink
  | rapidBlink
  | reverse
  | conceal
  | strikethrough
  deriving DecidableEq, Repr

/-- The attributes in the order in which they are written. -/
def Attr.all : List Attr :=
  [.bold, .faint, .italic, .slowBlink, .rapidBlink, .reverse, .conceal, .strikethrough]

/-- The number that sets an attribute. -/
def Attr.number : Attr → Nat
  | .bold => 1
  | .faint => 2
  | .italic => 3
  | .slowBlink => 5
  | .rapidBlink => 6
  | .reverse => 7
  | .conceal => 8
  | .strikethrough => 9

/-- What a terminal writes with. -/
structure Pen where
  attrs : List Attr := []
  /-- The kind of underline, zero for none. -/
  underline : Nat := 0
  front : Option Color := none
  back : Option Color := none
  line : Option Color := none
  deriving DecidableEq, Repr

namespace Pen

/-- The pen writes plainly. -/
def isPlain (p : Pen) : Bool := p = {}

/-- A blank shows nothing. -/
def hidesBlanks (p : Pen) : Bool :=
  !p.attrs.contains .reverse && p.back.isNone && p.underline == 0

/-! ### Reading -/

/-- A number of a control sequence. -/
structure Param where
  /-- Nothing when no digit was given. -/
  value : Option Nat
  /-- A colon binds the next number to this one. -/
  more : Bool
  deriving DecidableEq, Repr

/-- The number, zero when it is missing. -/
def Param.number (p : Param) : Nat := p.value.getD 0

/-- The number modulo 256. -/
def Param.byte (p : Param) : Nat := p.number % 256

/-- A colour given by the amounts of cyan, magenta, yellow and black. -/
def ofInks (c m y k : Nat) : Color :=
  let w := 0xFFFF - k * 0x101
  let light (ink : Nat) : Nat :=
    let n := (0xFFFF - ink * 0x101) * w / 0xFFFF
    if n > 0xFF then n / 256 else n
  .rgb (light c) (light m) (light y)

/-- Where the amounts of a colour stand among the numbers of a sequence, and how many numbers they
take. Numbers bound by colons may hold a colour space in front and tolerances behind. -/
def amounts (ps : List Param) : Option (List Nat × Nat) :=
  let bound (n : Nat) : Bool := (ps.take n).length == n && (ps.take n).all (·.more)
  let loose (i : Nat) : Bool := ps[i]?.any (!·.more)
  let isRgb : Bool := ps[1]?.any (·.number == 2)
  let from_ (i n : Nat) : List Nat := ((ps.drop i).take n).map Param.byte
  if bound 8 && ps.length > 8 then some (from_ 3 4, 9)
  else if bound 7 && ps.length > 7 then some (from_ 3 4, 8)
  else if bound 6 && ps.length > 6 then some (from_ 3 4, 7)
  else if bound 5 && loose 5 then some (from_ 3 3, 6)
  else if isRgb && ((bound 4 && loose 4) || [0, 1, 2, 3, 4].all loose) then some (from_ 2 3, 5)
  else none

/-- The colour that numbers give, the first of which asks for one, and how many numbers it takes.
Nothing when they give none. -/
def color? (ps : List Param) : Option (Option Color × Nat) :=
  match ps[1]? with
  | none => none
  | some kind =>
    match kind.number with
    | 0 => some (none, 2)
    | 1 => some (some (.rgb 0 0 0), 2)
    | 2 =>
      match amounts ps with
      | some (r :: g :: b :: _, n) => some (some (.rgb r g b), n)
      | _ => none
    | 3 =>
      match amounts ps with
      | some (c :: m :: y :: _, n) => some (some (ofInks c m y 0), n)
      | _ => none
    | 4 =>
      match amounts ps with
      | some (c :: m :: y :: k :: _, n) => some (some (ofInks c m y k), n)
      | _ => none
    | 5 =>
      match ps with
      | a :: b :: c :: _ =>
        if a.more == b.more && !c.more then some (some (.indexed c.byte), 3) else none
      | _ => none
    | 6 =>
      match amounts ps with
      | some (r :: g :: b :: _ :: _, n) => some (some (.rgb r g b), n)
      | _ => none
    | _ => none

/-- Sets an attribute. -/
def set (p : Pen) (a : Attr) : Pen :=
  if p.attrs.contains a then p else { p with attrs := a :: p.attrs }

/-- Clears an attribute. -/
def clear (p : Pen) (a : Attr) : Pen := { p with attrs := p.attrs.filter (· ≠ a) }

/-- The pen after a number that takes no others with it. -/
def change (p : Pen) (n : Nat) : Pen :=
  match Attr.all.find? (·.number == n) with
  | some a => p.set a
  | none =>
    let within (a b : Nat) : Bool := a ≤ n && n ≤ b
    if n == 0 then {}
    else if n == 4 then { p with underline := 1 }
    else if n == 22 then (p.clear .bold).clear .faint
    else if n == 23 then p.clear .italic
    else if n == 24 then { p with underline := 0 }
    else if n == 25 then (p.clear .slowBlink).clear .rapidBlink
    else if n == 27 then p.clear .reverse
    else if n == 28 then p.clear .conceal
    else if n == 29 then p.clear .strikethrough
    else if within 30 37 then { p with front := some (.named (n - 30)) }
    else if n == 39 then { p with front := none }
    else if within 40 47 then { p with back := some (.named (n - 40)) }
    else if n == 49 then { p with back := none }
    else if n == 59 then { p with line := none }
    else if within 90 97 then { p with front := some (.named (n - 82)) }
    else if within 100 107 then { p with back := some (.named (n - 92)) }
    else p

/-- The pen after the numbers of a sequence; `fuel` bounds their number. -/
def readFrom : (fuel : Nat) → Pen → List Param → Pen
  | 0, p, _ | _, p, [] => p
  | fuel + 1, p, a :: rest =>
    let colored (paint : Option Color → Pen) : Pen :=
      match color? (a :: rest) with
      | some (c, n) => readFrom fuel (paint c) (rest.drop (n - 1))
      | none => readFrom fuel p rest
    match a.number with
    | 38 => colored fun c => { p with front := c }
    | 48 => colored fun c => { p with back := c }
    | 58 => colored fun c => { p with line := c }
    | 4 =>
      match a.more, rest with
      | true, b :: rest' =>
        if b.number ≤ 5 then readFrom fuel { p with underline := b.number } rest'
        else readFrom fuel p rest
      | _, _ => readFrom fuel (p.change 4) rest
    | n => readFrom fuel (p.change n) rest

/-- The pen after a sequence. Without numbers it writes plainly. -/
def read (p : Pen) (ps : List Param) : Pen := if ps.isEmpty then {} else readFrom ps.length p ps

/-! ### Writing -/

/-- The numbers of a colour: `base` for the first eight named ones, `bright` for the others,
`extended` before a number of any other. -/
def colorText (base bright extended : Nat) : Color → String
  | .named n => toString (if n < 8 then base + n else bright + (n - 8))
  | .indexed n => toString extended ++ ";5;" ++ toString n
  | .rgb r g b =>
    toString extended ++ ";2;" ++ toString r ++ ";" ++ toString g ++ ";" ++ toString b

/-- The numbers of the colour of an underline. -/
def lineText : Color → String
  | .named n => "58;5;" ++ toString n
  | c => colorText 0 0 58 c

/-- The kind of an underline. -/
def underlineText (n : Nat) : String := if n == 1 then "4" else "4:" ++ toString n

/-- The numbers that give a pen. -/
def numbers (p : Pen) : List String :=
  ((Attr.all.filter p.attrs.contains).map fun a => toString a.number) ++
    (if p.underline == 0 then [] else [underlineText p.underline]) ++
    (p.front.map (colorText 30 90 38)).toList ++ (p.back.map (colorText 40 100 48)).toList ++
    (p.line.map lineText).toList

/-- The sequence that makes a terminal write plainly. -/
def plainSequence : String := "\x1b[m"

/-- The sequence that gives a pen. -/
def sequence (p : Pen) : String :=
  if p.isPlain then plainSequence else "\x1b[" ++ String.intercalate ";" p.numbers ++ "m"

end Pen
end Display
end ApiDiagrams
