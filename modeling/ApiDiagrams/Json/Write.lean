import ApiDiagrams.Text.Ascii

/-!
# Writing JSON strings

* `Json.quote`: a string in double quotes, safe inside a page of HTML;
* `Json.array`: strings as an array.
-/

namespace ApiDiagrams
namespace Json

/-- The letter of a short escape. -/
def letterOf? (c : Char) : Option Char :=
  if c == '"' then some '"'
  else if c == '\\' then some '\\'
  else if c == '\x08' then some 'b'
  else if c == '\x0c' then some 'f'
  else if c == '\n' then some 'n'
  else if c == '\r' then some 'r'
  else if c == '\t' then some 't'
  else none

/-- A character that is written by its number: a control, a character that means something in HTML,
or a line separator. -/
def isNumbered (c : Char) : Bool :=
  c.toNat < 0x20 || c == '<' || c == '>' || c == '&' || c.toNat == 0x2028 || c.toNat == 0x2029

/-- A character of a string. -/
def quoteChar (c : Char) : List Char :=
  match letterOf? c with
  | some letter => ['\\', letter]
  | none => if isNumbered c then '\\' :: 'u' :: Text.hexDigits 4 c.toNat else [c]

/-- A string in double quotes. -/
def quote (s : List Char) : List Char := '"' :: s.flatMap quoteChar ++ ['"']

/-- Strings as an array. -/
def array (items : List String) : List Char :=
  '[' :: Text.intercalate [','] (items.map fun s => quote s.toList) ++ [']']

end Json
end ApiDiagrams
