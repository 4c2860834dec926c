import ApiDiagrams.Text.Printable

/-!
# Quoted text

Messages show a name that came from outside between double quotes, with everything that cannot be
shown written as an escape. The quoted form is a single line of visible characters.
-/

namespace ApiDiagrams
namespace Text

/-- The escapes that have a letter of their own. -/
def letterEscape (c : Char) : Option Char :=
  match c.toNat with
  | 0x07 => some 'a'
  | 0x08 => some 'b'
  | 0x0C => some 'f'
  | 0x0A => some 'n'
  | 0x0D => some 'r'
  | 0x09 => some 't'
  | 0x0B => some 'v'
  | 0x5C => some '\\'
  | 0x22 => some '"'
  | _ => none

/-- One character between quotes: itself when it can be shown, else an escape by letter or by
code. -/
def quoteChar (c : Char) : List Char :=
  match letterEscape c with
  | some e => ['\\', e]
  | none =>
    if isPrintable c then [c]
    else if c.toNat < 0x80 then '\\' :: 'x' :: hexDigits 2 c.toNat
    else if c.toNat < 0x10000 then '\\' :: 'u' :: hexDigits 4 c.toNat
    else '\\' :: 'U' :: hexDigits 8 c.toNat

/-- The text between double quotes, with escapes. -/
def quote (s : String) : String := String.ofList ('"' :: s.toList.flatMap quoteChar ++ ['"'])

end Text
end ApiDiagrams
