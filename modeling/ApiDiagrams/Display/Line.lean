import ApiDiagrams.Display.Wrap
import ApiDiagrams.Time.Span

/-!
# Blocks and lines for the user

A block is a text of one or more lines. Blocks are shown with tabs as four columns and with all
lines of one block equally wide.

* `Block.even`: a block as it is shown;
* `Block.fitted`: a block of a given width, with its lines broken to fit;
* `Line.success`, `Line.failure`, `Line.warning`, `Line.info`: lines that start with a mark;
* `Line.detail`, `Line.file`: indented lines;
* `Line.keyValue`, `Line.stats`: a labelled value, the size of a diagram;
* `duration`: a length of time; `truncate`: the beginning of a text.
-/

namespace ApiDiagrams
namespace Display

namespace Block

/-- Four columns for each tab. -/
def expandTabs (text : List Char) : List Char :=
  text.flatMap fun c => if c == '\t' then [' ', ' ', ' ', ' '] else [c]

/-- Line ends of two characters become line feeds. -/
def plainLineEnds : List Char → List Char
  | '\r' :: '\n' :: rest => '\n' :: plainLineEnds rest
  | c :: rest => c :: plainLineEnds rest
  | [] => []

/-- The lines of a text. -/
def lines (text : List Char) : List (List Char) := Text.splitOn '\n' text

/-- The widest of lines. -/
def widest (ls : List (List Char)) : Nat := ls.foldl (fun w l => max w (Terminal.width l)) 0

/-- A line with blanks up to a width. -/
def padTo (w : Nat) (line : List Char) : List Char :=
  line ++ List.replicate (w - Terminal.width line) ' '

/-- Makes lines equally wide, at least as wide as given. -/
def align (least : Nat) (ls : List (List Char)) : List (List Char) :=
  ls.map (padTo (max least (widest ls)))

/-- A block as it is shown. A block of one line gets no blanks. -/
def even (text : String) : String :=
  let ls := lines (plainLineEnds (expandTabs text.toList))
  String.ofList (Text.intercalate ['\n'] (if ls.length ≤ 1 then ls else align 0 ls))

/-- The lines of a text, none of them wider than given. -/
def brokenLines (w : Nat) (text : String) : List (List Char) :=
  lines (Wrap.lines w (plainLineEnds (expandTabs text.toList)))

/-- A block of a given width. -/
def fitted (w : Nat) (text : String) : String :=
  String.ofList (Text.intercalate ['\n'] (align w (brokenLines w text)))

end Block

/-- A length of time, in milliseconds below a second and in hundredths of seconds from there on. -/
def duration (d : Int) : String :=
  Time.Span.text (Time.Span.round (if d < 1000000000 then 1000000 else 10000000) d)

/-- At most `n` characters of a text, the last one a mark when some are missing. -/
def truncate (n : Nat) (text : String) : String :=
  let chars := text.toList
  if chars.length ≤ n then text else String.ofList (chars.take (n - 1) ++ ['…'])

namespace Line

def success (text : String) : String := "✓ " ++ text ++ "\n"
def failure (text : String) : String := "✗ " ++ text ++ "\n"
def warning (text : String) : String := "! " ++ Block.even text ++ "\n"
def info (text : String) : String := "› " ++ text ++ "\n"

/-- An indented line. -/
def detail (text : String) : String := "  " ++ Block.even text ++ "\n"

/-- The line for a file that was written. -/
def file (path : String) : String := "  → " ++ Block.even path ++ "\n"

/-- The columns of a label. -/
def labelWidth : Nat := 12

/-- A labelled value. -/
def keyValue (key value : String) : String :=
  Block.fitted labelWidth key ++ " " ++ Block.even value ++ "\n"

/-- The size of a diagram, and whether there is an image of it. -/
def stats (nodes edges : Int) (rendered : Bool) : String :=
  "  " ++ toString nodes ++ " nodes · " ++ toString edges ++ " edges · " ++
    (if rendered then "rendered" else "no image") ++ "\n"

end Line
end Display
end ApiDiagrams
