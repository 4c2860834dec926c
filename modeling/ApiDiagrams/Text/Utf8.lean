import ApiDiagrams.Text.Blank

/-!
# Bytes that are meant to be UTF-8

Files and the output of programs are bytes, and nothing promises that they are valid UTF-8. The
bytes are read as a sequence of units: a character where a well-formed sequence stands, and a
stray byte elsewhere.

* `units`: bytes as units; `ofUnits`: back to the bytes;
* `toText?`: the text, when there is no stray byte;
* `toTextLossy`: the text with U+FFFD for each stray byte;
* `trimBytes`: the bytes without the blank characters at their ends.
-/

namespace ApiDiagrams
namespace Text

/-- A character, or a byte that belongs to none. -/
inductive ByteUnit
  | char (c : Char)
  | stray (b : UInt8)
  deriving DecidableEq, Repr, Inhabited

/-- A byte that continues a sequence. -/
def isContinuation (b : UInt8) : Bool := b &&& 0xC0 == 0x80

/-- The low six bits of a continuation byte. -/
def continuationBits (b : UInt8) : Nat := (b &&& 0x3F).toNat

/-- The unit at the front of a nonempty sequence of bytes, and the number of further bytes that
it takes. Overlong forms, surrogates and codes above U+10FFFF are not well formed. -/
def headUnit (b : UInt8) (rest : List UInt8) : ByteUnit × Nat :=
  if b < 0x80 then (.char (Char.ofNat b.toNat), 0)
  else
    match rest with
    | b1 :: more =>
      if 0xC2 ≤ b && b ≤ 0xDF && isContinuation b1 then
        (.char (Char.ofNat ((b.toNat - 0xC0) * 64 + continuationBits b1)), 1)
      else
        match more with
        | b2 :: more =>
          let n3 := (b.toNat - 0xE0) * 4096 + continuationBits b1 * 64 + continuationBits b2
          if 0xE0 ≤ b && b ≤ 0xEF && isContinuation b1 && isContinuation b2 && 0x800 ≤ n3 &&
              !(0xD800 ≤ n3 && n3 ≤ 0xDFFF) then
            (.char (Char.ofNat n3), 2)
          else
            match more with
            | b3 :: _ =>
              let n4 := (b.toNat - 0xF0) * 262144 + continuationBits b1 * 4096 +
                continuationBits b2 * 64 + continuationBits b3
              if 0xF0 ≤ b && b ≤ 0xF4 && isContinuation b1 && isContinuation b2 &&
                  isContinuation b3 && 0x10000 ≤ n4 && n4 ≤ 0x10FFFF then
                (.char (Char.ofNat n4), 3)
              else (.stray b, 0)
            | [] => (.stray b, 0)
        | [] => (.stray b, 0)
    | [] => (.stray b, 0)

/-- The units of a sequence of bytes, skipping `skip` bytes first. -/
def unitsFrom : (skip : Nat) → List UInt8 → List ByteUnit
  | _, [] => []
  | skip + 1, _ :: rest => unitsFrom skip rest
  | 0, b :: rest =>
    let (unit, more) := headUnit b rest
    unit :: unitsFrom more rest

/-- The units of a sequence of bytes. -/
def units (bytes : ByteArray) : List ByteUnit := unitsFrom 0 bytes.toList

/-- The bytes of a unit. -/
def ByteUnit.bytes : ByteUnit → List UInt8
  | .char c => String.utf8EncodeChar c
  | .stray b => [b]

/-- The bytes of a sequence of units. -/
def ofUnits (us : List ByteUnit) : ByteArray := ⟨(us.flatMap ByteUnit.bytes).toArray⟩

/-- The character of a unit, U+FFFD for a stray byte. -/
def ByteUnit.lossy : ByteUnit → Char
  | .char c => c
  | .stray _ => '\uFFFD'

/-- The text of bytes that are valid UTF-8. -/
def toText? (bytes : ByteArray) : Option String := String.fromUTF8? bytes

/-- The characters of the bytes, with U+FFFD for each stray byte. -/
def charsLossy (bytes : ByteArray) : List Char :=
  match toText? bytes with
  | some s => s.toList
  | none => (units bytes).map ByteUnit.lossy

/-- The text of the bytes, with U+FFFD for each stray byte. -/
def toTextLossy (bytes : ByteArray) : String :=
  match toText? bytes with
  | some s => s
  | none => String.ofList ((units bytes).map ByteUnit.lossy)

/-- The unit is a blank character. -/
def ByteUnit.isBlank : ByteUnit → Bool
  | .char c => Text.isBlank c
  | .stray _ => false

/-- The bytes without the blank characters at their ends. -/
def trimBytes (bytes : ByteArray) : ByteArray :=
  let front := (units bytes).dropWhile ByteUnit.isBlank
  ofUnits ((front.reverse.dropWhile ByteUnit.isBlank).reverse)

end Text
end ApiDiagrams
