import ApiDiagrams.Text.Ascii

/-!
# Tables over ranges of characters

Properties of characters outside ASCII are data of a standard. They are written here as rows of
words, a word standing for one character or for a range of characters in hexadecimal, possibly
with a value behind a mark: `300-36f`, `bc:1_4`, `c0-d6+20`.

* `Range`: a first and a last code point;
* `Range.ofRows`: the ranges of a table without values;
* `Range.assocOfRows`: the ranges of a table with values, read after a given mark.
-/

namespace ApiDiagrams
namespace Text

/-- The code points from `first` to `last`, both included. -/
structure Range where
  first : Nat
  last : Nat
  deriving Repr, DecidableEq

namespace Range

/-- The range holds the code point. -/
def holds (r : Range) (n : Nat) : Bool := r.first ≤ n && n ≤ r.last

/-- The range that a word such as `2d30-2d67` or `aa` writes. -/
def ofWord (word : List Char) : Range :=
  match cutAt '-' word with
  | some (a, b) => ⟨hexNumber a, hexNumber b⟩
  | none => ⟨hexNumber word, hexNumber word⟩

/-- The words of a table, in order. -/
def words (rows : List String) : List (List Char) :=
  rows.flatMap fun row => (splitOn ' ' row.toList).filter (· ≠ [])

/-- The ranges of a table without values. -/
def ofRows (rows : List String) : Array Range := ((words rows).map ofWord).toArray

/-- The ranges of a table whose words carry a value behind the first character satisfying `mark`;
the mark itself is part of the value. -/
def assocOfRows (mark : Char → Bool) (rows : List String) : Array (Range × List Char) :=
  ((words rows).map fun word =>
    let (range, value) := span (fun c => !mark c) word
    (ofWord range, value)).toArray

/-- Some range of the table holds the character. -/
def mem (table : Array Range) (c : Char) : Bool := table.any (·.holds c.toNat)

/-- The value of the first range that holds the character. -/
def find? {α : Type} (table : Array (Range × α)) (c : Char) : Option α :=
  (table.find? fun entry => entry.1.holds c.toNat).map (·.2)

end Range
end Text
end ApiDiagrams
