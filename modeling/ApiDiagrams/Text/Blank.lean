import ApiDiagrams.Text.Ascii

/-!
# Blanks and controls

* `isBlank`: the characters with Unicode's white-space property;
* `isAsciiBlank`: tab, line feed, form feed, carriage return and space;
* `isControl`: the C0 and C1 controls;
* `trim`: a text without the blanks at its ends.
-/

namespace ApiDiagrams
namespace Text

/-- A white-space character of Unicode. -/
def isBlank (c : Char) : Bool :=
  let n := c.toNat
  (0x09 ≤ n && n ≤ 0x0D) || n == 0x20 || n == 0x85 || n == 0xA0 || n == 0x1680 ||
    (0x2000 ≤ n && n ≤ 0x200A) || n == 0x2028 || n == 0x2029 || n == 0x202F || n == 0x205F ||
    n == 0x3000

/-- Tab, line feed, form feed, carriage return or space. -/
def isAsciiBlank (c : Char) : Bool :=
  c == '\t' || c == '\n' || c == '\x0c' || c == '\r' || c == ' '

/-- A control character: a code below 32, or from 127 to 159. -/
def isControl (c : Char) : Bool := c.toNat < 0x20 || (0x7F ≤ c.toNat && c.toNat ≤ 0x9F)

/-- The text without the blanks at its ends. -/
def trim (text : List Char) : List Char := dropTrailing isBlank (text.dropWhile isBlank)

/-- `trim`, on strings. -/
def trimText (s : String) : String := String.ofList (trim s.toList)

end Text
end ApiDiagrams
