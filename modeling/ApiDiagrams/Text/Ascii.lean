/-!
# Plain ASCII text

The character classes that the formats of this library are written with, and the ways of cutting
a text at a character. Every class here is a class of ASCII characters only: a letter outside
ASCII belongs to none of them.

* `isDigit`, `isLower`, `isUpper`, `isWord`, `isHexDigit`: the classes;
* `lower`, `upper`: the case maps that leave everything outside ASCII letters alone;
* `splitOn`, `intercalate`: cutting at every occurrence of one character, and joining again;
* `startsWith?`, `contains`, `endsWith`: prefixes, infixes and suffixes.
-/

namespace ApiDiagrams
namespace Text

/-- A decimal digit. -/
def isDigit (c : Char) : Bool := '0' ≤ c && c ≤ '9'

/-- A small letter. -/
def isLower (c : Char) : Bool := 'a' ≤ c && c ≤ 'z'

/-- A capital letter. -/
def isUpper (c : Char) : Bool := 'A' ≤ c && c ≤ 'Z'

/-- A letter. -/
def isLetter (c : Char) : Bool := isLower c || isUpper c

/-- A letter, a digit or an underscore: what identifiers are made of. -/
def isWord (c : Char) : Bool := isLetter c || isDigit c || c == '_'

/-- A digit of a hexadecimal number, in either case. -/
def isHexDigit (c : Char) : Bool :=
  isDigit c || ('a' ≤ c && c ≤ 'f') || ('A' ≤ c && c ≤ 'F')

/-- The small form of a capital letter; other characters stay. -/
def lower (c : Char) : Char := if isUpper c then Char.ofNat (c.toNat + 32) else c

/-- The capital form of a small letter; other characters stay. -/
def upper (c : Char) : Char := if isLower c then Char.ofNat (c.toNat - 32) else c

/-- The value of a hexadecimal digit, zero for any other character. -/
def hexValue (c : Char) : Nat :=
  if isDigit c then c.toNat - 48
  else if 'a' ≤ c && c ≤ 'f' then c.toNat - 87
  else if 'A' ≤ c && c ≤ 'F' then c.toNat - 55
  else 0

/-- The number that a run of hexadecimal digits writes. -/
def hexNumber (digits : List Char) : Nat :=
  digits.foldl (fun n c => n * 16 + hexValue c) 0

/-- The number that a run of decimal digits writes. -/
def decimalNumber (digits : List Char) : Nat :=
  digits.foldl (fun n c => n * 10 + (c.toNat - 48)) 0

/-- The hexadecimal digits of `n`, with zeros in front up to `width`. -/
def hexDigits (width n : Nat) : List Char :=
  let digits := Nat.toDigits 16 n
  List.replicate (width - digits.length) '0' ++ digits

/-- The decimal digits of `n`, with `fill` in front up to `width`. -/
def decimalDigits (fill : Char) (width n : Nat) : List Char :=
  let digits := Nat.toDigits 10 n
  List.replicate (width - digits.length) fill ++ digits

/-- The pieces between the occurrences of `sep`; there is always at least one piece. -/
def splitOn (sep : Char) : List Char → List (List Char)
  | [] => [[]]
  | c :: rest =>
    if c = sep then [] :: splitOn sep rest
    else
      match splitOn sep rest with
      | [] => [[c]]
      | piece :: pieces => (c :: piece) :: pieces

/-- The pieces with `sep` between each two of them. -/
def intercalate (sep : List Char) : List (List Char) → List Char
  | [] => []
  | [piece] => piece
  | piece :: pieces => piece ++ sep ++ intercalate sep pieces

/-- What follows `head` when the text starts with it. -/
def startsWith? : (head text : List Char) → Option (List Char)
  | [], text => some text
  | _ :: _, [] => none
  | h :: hs, c :: cs => if h = c then startsWith? hs cs else none

/-- The text starts with `head`. -/
def startsWith (head text : List Char) : Bool := (startsWith? head text).isSome

/-- The text ends with `tail`. -/
def endsWith (tail text : List Char) : Bool := startsWith tail.reverse text.reverse

/-- Some part of the text is `piece`. -/
def contains (piece : List Char) : List Char → Bool
  | [] => startsWith piece []
  | c :: rest => startsWith piece (c :: rest) || contains piece rest

/-- The text before and after the first occurrence of `sep`. -/
def cutAt (sep : Char) : List Char → Option (List Char × List Char)
  | [] => none
  | c :: rest =>
    if c = sep then some ([], rest)
    else (cutAt sep rest).map fun (before, after) => (c :: before, after)

/-- The longest run of characters satisfying `p` at the front, and the rest. -/
def span (p : Char → Bool) : List Char → List Char × List Char
  | [] => ([], [])
  | c :: rest =>
    if p c then
      let (run, after) := span p rest
      (c :: run, after)
    else ([], c :: rest)

/-- The text without the characters satisfying `p` at its end. -/
def dropTrailing (p : Char → Bool) (text : List Char) : List Char :=
  (text.reverse.dropWhile p).reverse

/-- The number of bytes that the UTF-8 form of a text takes. -/
def byteLength (text : List Char) : Nat := text.foldl (fun n c => n + c.utf8Size) 0

@[simp] theorem startsWith?_nil (text : List Char) : startsWith? [] text = some text := by
  cases text <;> rfl

/-- A prefix and what follows it make up the text. -/
theorem append_of_startsWith? {head text rest : List Char}
    (h : startsWith? head text = some rest) : text = head ++ rest := by
  induction head generalizing text with
  | nil => simpa using h
  | cons c cs ih =>
    cases text with
    | nil => simp [startsWith?] at h
    | cons d ds =>
      by_cases hc : c = d
      · subst hc
        simp only [startsWith?, if_pos] at h
        simp [ih h]
      · simp [startsWith?, hc] at h

/-- Splitting never yields the empty list of pieces. -/
theorem splitOn_ne_nil (sep : Char) (text : List Char) : splitOn sep text ≠ [] := by
  cases text with
  | nil => simp [splitOn]
  | cons c rest =>
    by_cases h : c = sep
    · simp [splitOn, h]
    · simp only [splitOn, if_neg h]
      split <;> simp

/-- Joining the pieces of a split gives back the text. -/
theorem intercalate_splitOn (sep : Char) (text : List Char) :
    intercalate [sep] (splitOn sep text) = text := by
  induction text with
  | nil => rfl
  | cons c rest ih =>
    cases hs : splitOn sep rest with
    | nil => exact absurd hs (splitOn_ne_nil sep rest)
    | cons piece pieces =>
      rw [hs] at ih
      by_cases h : c = sep
      · simp only [splitOn, if_pos h, hs, intercalate, ih]
        simp [h]
      · simp only [splitOn, if_neg h, hs]
        cases pieces with
        | nil => simpa only [intercalate] using congrArg (c :: ·) ih
        | cons p ps => simpa only [intercalate, List.cons_append] using congrArg (c :: ·) ih

end Text
end ApiDiagrams
