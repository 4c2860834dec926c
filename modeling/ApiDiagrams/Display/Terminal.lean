import ApiDiagrams.Text.Sign

/-!
# What a terminal shows of a text

A terminal takes bytes. Some of them start a control sequence, which shows nothing; inside one, most
bytes mean something else than on their own.

* `Terminal.Mode`: where the terminal is in a control sequence;
* `Mode.next`: what a byte does there;
* `Terminal.width`: the columns that a text takes.
-/

namespace ApiDiagrams
namespace Display
namespace Terminal

/-- Where a terminal is in a control sequence. -/
inductive Mode
  /-- Outside of any. -/
  | ground
  | escape
  | escapeInner
  /-- A sequence with parameters, at its start. -/
  | controlStart
  | controlParam
  | controlInner
  /-- A sequence with parameters and data, before the data. -/
  | deviceStart
  | deviceParam
  | deviceInner
  | deviceData
  /-- A command to the system of the terminal. -/
  | systemData
  /-- A message that terminals pass over. -/
  | message
  deriving DecidableEq, Repr

/-- What a terminal does with a byte. -/
inductive Act
  | print
  | execute
  /-- A character outside ASCII starts. -/
  | character
  | other
  deriving DecidableEq, Repr

namespace Mode

/-- A control that cuts no sequence short. -/
def isControl (b : UInt8) : Bool := b ≤ 0x17 || b == 0x19 || (0x1C ≤ b && b ≤ 0x1F)

/-- What a byte does wherever the mode has no rule of its own. -/
def anywhere (b : UInt8) : Mode × Act :=
  if b == 0x1B then (.escape, .other)
  else if b == 0x90 then (.deviceStart, .other)
  else if b == 0x9B then (.controlStart, .other)
  else if b == 0x9D then (.systemData, .other)
  else if b == 0x98 || b == 0x9E || b == 0x9F then (.message, .other)
  else if b == 0x18 || b == 0x1A || (0x80 ≤ b && b ≤ 0x9C) then (.ground, .execute)
  else if 0xC2 ≤ b && b ≤ 0xF4 then (.ground, .character)
  else (.ground, .other)

/-- What a byte does after an escape. -/
def afterEscape (b : UInt8) : Mode × Act :=
  if b == 0x50 then (.deviceStart, .other)
  else if b == 0x5B then (.controlStart, .other)
  else if b == 0x5D then (.systemData, .other)
  else if b == 0x58 || b == 0x5E || b == 0x5F then (.message, .other)
  else (.ground, .other)

/-- What a byte does, and the mode after it. -/
def next (m : Mode) (b : UInt8) : Mode × Act :=
  let within (first last : UInt8) : Bool := first ≤ b && b ≤ last
  let inner : Bool := within 0x20 0x2F
  let param : Bool := within 0x30 0x3F
  let final : Bool := within 0x40 0x7E
  match m with
  | .ground =>
    if within 0x20 0x7E then (.ground, .print)
    else if isControl b || b == 0x7F then (.ground, .execute)
    else anywhere b
  | .escape =>
    if isControl b then (.escape, .execute)
    else if b == 0x7F then (.escape, .other)
    else if inner then (.escapeInner, .other)
    else if param || final then afterEscape b
    else anywhere b
  | .escapeInner =>
    if isControl b then (.escapeInner, .execute)
    else if b == 0x7F || inner then (.escapeInner, .other)
    else if param || final then (.ground, .other)
    else anywhere b
  | .controlStart | .controlParam =>
    if isControl b then (m, .execute)
    else if b == 0x7F then (m, .other)
    else if inner then (.controlInner, .other)
    else if param then (.controlParam, .other)
    else if final then (.ground, .other)
    else anywhere b
  | .controlInner =>
    if isControl b then (.controlInner, .execute)
    else if b == 0x7F || inner then (.controlInner, .other)
    else if param || final then (.ground, .other)
    else anywhere b
  | .deviceStart =>
    if within 0x08 0x0D || b == 0x1B then (.deviceData, .other)
    else if isControl b || b == 0x7F then (.deviceStart, .other)
    else if inner then (.deviceInner, .other)
    else if param then (.deviceParam, .other)
    else if final then (.deviceData, .other)
    else anywhere b
  | .deviceParam =>
    if isControl b || b == 0x7F || param then (.deviceParam, .other)
    else if inner then (.deviceInner, .other)
    else if final then (.deviceData, .other)
    else anywhere b
  | .deviceInner =>
    if isControl b || b == 0x7F || inner then (.deviceInner, .other)
    else if param || final then (.deviceData, .other)
    else anywhere b
  | .deviceData =>
    if b == 0x1B then (.escape, .other)
    else if b == 0x9C || b == 0x18 || b == 0x1A then (.ground, .other)
    else (.deviceData, .other)
  | .systemData =>
    if b == 0x1B then (.escape, .other)
    else if b == 0x07 || b == 0x9C || b == 0x18 || b == 0x1A then (.ground, .other)
    else (.systemData, .other)
  | .message =>
    if b == 0x1B then (.escape, .other)
    else if b == 0x9C || b == 0x18 || b == 0x1A then (.ground, .other)
    else if b < 0x80 then (.message, .other)
    else anywhere b

end Mode

/-- The bytes of a text. -/
def bytes (text : List Char) : List UInt8 := text.flatMap String.utf8EncodeChar

/-- What a terminal takes at once: a byte, or a sign outside of control sequences. -/
inductive Item
  | byte (b : UInt8) (act : Act)
  | sign (s : Text.Sign)

/-- The items of the bytes of a character inside a sequence, and the mode after them. -/
def byteItems : Mode → List UInt8 → List Item × Mode
  | m, [] => ([], m)
  | m, b :: bs =>
    let (m, act) := m.next b
    let (items, m) := byteItems m bs
    (.byte b act :: items, m)

/-- The items of a text; `fuel` bounds the number of its characters. -/
def items : (fuel : Nat) → Mode → List Char → List Item
  | 0, _, _ | _, _, [] => []
  | fuel + 1, m, c :: text =>
    let bs := String.utf8EncodeChar c
    if bs.head?.any fun b => (m.next b).2 == .character then
      let s := Text.Sign.first c text
      .sign s :: items fuel .ground (text.drop (s.chars.length - 1))
    else
      let (front, m) := byteItems m bs
      front ++ items fuel m text

/-- The columns of an item. -/
def Item.width : Item → Nat
  | .byte _ act => if act == .print then 1 else 0
  | .sign s => s.width

/-- The columns of a text. -/
def width (text : List Char) : Nat :=
  (items text.length .ground text).foldl (fun n i => n + i.width) 0

end Terminal
end Display
end ApiDiagrams
