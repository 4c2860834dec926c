import ApiDiagrams.Text.Ascii

/-!
# Base64

Bytes as text in the standard alphabet, with padding.

* `encodeBase64`, `decodeBase64?`: writing and reading. Line breaks are skipped when reading.
-/

namespace ApiDiagrams
namespace Text

/-- The digit for a value below sixty-four. -/
def base64Digit (n : Nat) : Char :=
  if n < 26 then Char.ofNat (65 + n)
  else if n < 52 then Char.ofNat (97 + (n - 26))
  else if n < 62 then Char.ofNat (48 + (n - 52))
  else if n = 62 then '+' else '/'

/-- The value of a digit. -/
def base64Value? (c : Char) : Option Nat :=
  if isUpper c then some (c.toNat - 65)
  else if isLower c then some (c.toNat - 97 + 26)
  else if isDigit c then some (c.toNat - 48 + 52)
  else if c = '+' then some 62
  else if c = '/' then some 63
  else none

/-- The digits of bytes, three bytes at a time. -/
def base64Digits : List UInt8 → List Char
  | [] => []
  | [a] =>
    let n := a.toNat
    [base64Digit (n / 4), base64Digit (n % 4 * 16), '=', '=']
  | [a, b] =>
    let n := a.toNat * 256 + b.toNat
    [base64Digit (n / 1024), base64Digit (n / 16 % 64), base64Digit (n % 16 * 4), '=']
  | a :: b :: c :: rest =>
    let n := a.toNat * 65536 + b.toNat * 256 + c.toNat
    base64Digit (n / 262144) :: base64Digit (n / 4096 % 64) :: base64Digit (n / 64 % 64) ::
      base64Digit (n % 64) :: base64Digits rest

/-- The text of bytes. -/
def encodeBase64 (bytes : ByteArray) : String := String.ofList (base64Digits bytes.toList)

/-- The bytes of digits, four digits at a time. Padding ends the text. -/
def base64Bytes? : List Char → Option (List UInt8)
  | [] => some []
  | [a, b, '=', '='] => do
    let n := (← base64Value? a) * 64 + (← base64Value? b)
    return [(n / 16).toUInt8]
  | a :: b :: c :: d :: rest => do
    if d = '=' then
      if rest ≠ [] then none
      else
        let n := (← base64Value? a) * 4096 + (← base64Value? b) * 64 + (← base64Value? c)
        return [(n / 1024).toUInt8, (n / 4 % 256).toUInt8]
    else
      let n := (← base64Value? a) * 262144 + (← base64Value? b) * 4096 + (← base64Value? c) * 64 +
        (← base64Value? d)
      return (n / 65536).toUInt8 :: (n / 256 % 256).toUInt8 :: (n % 256).toUInt8 ::
        (← base64Bytes? rest)
  | _ => none

/-- The bytes of a text. -/
def decodeBase64? (text : List Char) : Option ByteArray :=
  (base64Bytes? (text.filter fun c => c ≠ '\n' && c ≠ '\r')).map fun bs => ⟨bs.toArray⟩

end Text
end ApiDiagrams
