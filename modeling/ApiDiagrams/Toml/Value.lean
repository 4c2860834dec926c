import ApiDiagrams.Text.Ascii

/-!
# TOML

* `Toml.Value`: a value, with the entries of a table in the order in which they were added;
* `Toml.Table`: the entries of a table;
* `Path.text`: the dotted form of a key.
-/

namespace ApiDiagrams
namespace Toml

/-- A TOML value. Of floats and dates only the fact is kept. -/
inductive Value
  | text (s : String)
  | integer (n : Int)
  | float
  | flag (b : Bool)
  | date
  | array (items : List Value)
  | table (entries : List (String × Value))
  /-- An array of tables, which further headers extend. -/
  | tables (rows : List (List (String × Value)))
  deriving Inhabited

/-- The entries of a table. -/
abbrev Table := List (String × Value)

/-- A key with all its parts, from the outermost table on. -/
abbrev Path := List String

/-- A character that a key may have without quotes. -/
def isBareChar (c : Char) : Bool := Text.isLetter c || Text.isDigit c || c == '_' || c == '-'

/-- A character of a quoted key. -/
def quotedChar (c : Char) : List Char :=
  if c == '"' then ['\\', '"']
  else if c == '\\' then ['\\', '\\']
  else if c == '\x08' then ['\\', 'b']
  else if c == '\t' then ['\\', 't']
  else if c == '\n' then ['\\', 'n']
  else if c == '\x0c' then ['\\', 'f']
  else if c == '\r' then ['\\', 'r']
  else if c.toNat < 0x20 || c.toNat == 0x7f then '\\' :: 'u' :: Text.hexDigits 4 c.toNat
  else [c]

/-- A part of a key, in quotes if it needs them. -/
def partText (part : String) : List Char :=
  let cs := part.toList
  if !cs.isEmpty && cs.all isBareChar then cs else '"' :: cs.flatMap quotedChar ++ ['"']

/-- The dotted form of a key. -/
def pathText (p : Path) : String := String.ofList (Text.intercalate ['.'] (p.map partText))

end Toml
end ApiDiagrams
