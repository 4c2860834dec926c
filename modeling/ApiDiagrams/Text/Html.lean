import ApiDiagrams.Text.Ascii

/-!
# Text inside HTML

* `escapeHtml`: the five characters with a meaning in HTML, written as references;
* `asciiRefs`: every character outside ASCII written as a numeric reference.

`unescapeHtml` reads the references of the two back, decimal ones included.
-/

namespace ApiDiagrams
namespace Text

/-- The reference for a character with a meaning in HTML; other characters stay. -/
def escapeHtmlChar (c : Char) : List Char :=
  match c with
  | '&' => "&amp;".toList
  | '\'' => "&#39;".toList
  | '<' => "&lt;".toList
  | '>' => "&gt;".toList
  | '"' => "&#34;".toList
  | _ => [c]

/-- The text with the characters that mean something in HTML written as references. -/
def escapeHtml (text : List Char) : List Char := text.flatMap escapeHtmlChar

/-- A character outside ASCII as a decimal reference; ASCII stays. -/
def asciiRef (c : Char) : List Char :=
  if c.toNat < 0x80 then [c] else '&' :: '#' :: (Nat.toDigits 10 c.toNat ++ [';'])

/-- The text in ASCII, with decimal references for the rest. -/
def asciiRefs (text : List Char) : List Char := text.flatMap asciiRef

/-- A text as it stands inside an HTML page written in ASCII. -/
def htmlAscii (s : String) : List Char := asciiRefs (escapeHtml s.toList)

/-- The character that a reference body (between `&` and `;`) stands for. -/
def referenceChar? (body : List Char) : Option Char :=
  match body with
  | ['a', 'm', 'p'] => some '&'
  | ['l', 't'] => some '<'
  | ['g', 't'] => some '>'
  | '#' :: digits =>
    if digits ≠ [] ∧ digits.all isDigit then some (Char.ofNat (decimalNumber digits)) else none
  | _ => none

/-- Reading a text of HTML: the state is the reference being read, if any. -/
def unescapeFrom : Option (List Char) → List Char → Option (List Char)
  | none, [] => some []
  | some _, [] => none
  | none, c :: rest =>
    if c = '&' then unescapeFrom (some []) rest else (unescapeFrom none rest).map (c :: ·)
  | some body, c :: rest =>
    if c = ';' then do
      let r ← referenceChar? body
      return r :: (← unescapeFrom none rest)
    else unescapeFrom (some (body ++ [c])) rest

/-- The text that a piece of HTML without tags shows. -/
def unescapeHtml (text : List Char) : Option (List Char) := unescapeFrom none text

end Text
end ApiDiagrams
