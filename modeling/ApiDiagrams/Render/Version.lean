import ApiDiagrams.Data.Word
import ApiDiagrams.Text.LetterCase

/-!
# Versions of the layout tool

* `Version`: dotted version numbers, compared number by number;
* `Version.parse`: the version in what the layout tool says about itself.
-/

namespace ApiDiagrams
namespace Render

/-- A dotted version number such as 2.43.0. -/
structure Version where
  numbers : List Int
  deriving DecidableEq, Repr, Inhabited

namespace Version

/-- The version of a tool that does not tell. -/
def unknown : Version := ⟨[0]⟩

/-- Comparison of lists of numbers; a list comes before its continuations. -/
def compareLists : List Int → List Int → Ordering
  | [], [] => .eq
  | [], _ :: _ => .lt
  | _ :: _, [] => .gt
  | a :: as, b :: bs => if a < b then .lt else if b < a then .gt else compareLists as bs

/-- Comparison number by number; a version comes before its refinements. -/
def compare (v o : Version) : Ordering := compareLists v.numbers o.numbers

/-- The version is the other one or a later one. -/
def atLeast (v o : Version) : Bool := v.compare o != .lt

/-- The tool did not tell its version. -/
def isUnknown (v : Version) : Bool := v.numbers.isEmpty || v == unknown

/-- The numbers joined by dots. -/
def text (v : Version) : String :=
  if v.isUnknown then "unknown" else String.intercalate "." (v.numbers.map toString)

/-- What follows a word at the front of a text, in any case of its letters. -/
def dropWord? : (word text : List Char) → Option (List Char)
  | [], text => some text
  | _ :: _, [] => none
  | w :: ws, c :: cs => if w = Text.foldCase c then dropWord? ws cs else none

/-- The digits and dots of a version announced at the front of a text. -/
def announced? (text : List Char) : Option (List Char) := do
  let rest ← (dropWord? "dot".toList text).or (dropWord? "graphviz".toList text)
  let rest ← dropWord? " version ".toList rest
  match rest.takeWhile fun c => Text.isDigit c || c == '.' with
  | [] => none
  | run => some run

/-- The digits and dots of the first version announced in a text. -/
def findAnnounced : List Char → Option (List Char)
  | [] => none
  | c :: rest => (announced? (c :: rest)).or (findAnnounced rest)

/-- The numbers between the dots, up to the first that is too large for a 64-bit word. -/
def numbersOf (run : List Char) : List Int :=
  (((Text.splitOn '.' run).filter (· ≠ [])).map Text.decimalNumber
    |>.takeWhile (· < Word.half)).map Int.ofNat

/-- The version that a banner such as `dot - graphviz version 2.43.0 (0)` announces. -/
def parse (banner : String) : Version :=
  match (findAnnounced banner.toList).map numbersOf with
  | some (n :: numbers) => ⟨n :: numbers⟩
  | _ => unknown

end Version
end Render
end ApiDiagrams
