import ApiDiagrams.Data.Word
import ApiDiagrams.Display.Line

/-!
# The table of timings

* `Table.text`: a framed table of two columns;
* `timings`: how long the stages of a run took, and their sum.
-/

namespace ApiDiagrams
namespace Display
namespace Table

/-- A row of a table. -/
abbrev Row := String × String

/-- The columns that a cell needs. -/
def cellWidth (text : String) : Nat := Block.widest (Block.lines text.toList)

/-- The widths of the two columns. -/
def widths (rows : List Row) : Nat × Nat :=
  rows.foldl (fun (a, b) (x, y) => (max a (cellWidth x), max b (cellWidth y))) (0, 0)

/-- A horizontal rule with its three corners. -/
def rule (left middle right : Char) (w : Nat × Nat) : List Char :=
  left :: List.replicate (w.1 + 2) '─' ++ middle :: List.replicate (w.2 + 2) '─' ++ [right]

/-- The lines that a row takes: as many as its cells reserve. -/
def rowHeight (w : Nat × Nat) (r : Row) : Nat :=
  let cell (width : Nat) (text : String) : Nat :=
    Wrap.height width (Block.lines (Block.plainLineEnds text.toList))
  max (cell w.1 r.1) (cell w.2 r.2)

/-- The lines of a cell, with a blank on either side. -/
def cellLines (w height : Nat) (text : String) : List (List Char) :=
  let ls := (Block.brokenLines w text).map fun line => ' ' :: line ++ [' ']
  let ls := Block.align (w + 2) (ls ++ List.replicate (height - ls.length) [])
  Block.align 0 (ls.take height)

/-- The lines of a row. -/
def rowLines (w : Nat × Nat) (r : Row) : List (List Char) :=
  let height := rowHeight w r
  ((cellLines w.1 height r.1).zip (cellLines w.2 height r.2)).map fun (a, b) =>
    '│' :: a ++ '│' :: b ++ ['│']

/-- A framed table with a head. -/
def text (head : Row) (rows : List Row) : String :=
  let w := widths (head :: rows)
  let ls := [rule '┌' '┬' '┐' w] ++ rowLines w head ++ [rule '├' '┼' '┤' w] ++
    rows.flatMap (rowLines w) ++ [rule '└' '┴' '┘' w]
  String.ofList (Text.intercalate ['\n'] (Block.align 0 ls))

end Table

/-- A sum of lengths of time in a 64-bit word. -/
def total (ds : List Int) : Int := ds.foldl (fun s d => Word.wrap (s + d)) 0

/-- The table of how long stages took. -/
def timings (stages : List (String × Int)) : String :=
  let rows := stages.map fun (name, d) => (name, duration d)
  Table.text ("Stage", "Time") (rows ++ [("Total", duration (total (stages.map (·.2))))]) ++ "\n"

end Display
end ApiDiagrams
