import ApiDiagrams.Text.Ascii

/-!
# Paths as text

Lexical rules for slash-separated paths, which never look at any file.

* `Path.clean`: the shortest equivalent path;
* `Path.join`: a path below another;
* `Path.dir`, `Path.extension`, `Path.withoutExtension`: parts of a path;
* `Path.fronts`: the directories that a path leads through.
-/

namespace ApiDiagrams
namespace Path

/-- The components between slashes, without empty ones. -/
def components (path : String) : List String :=
  ((Text.splitOn '/' path.toList).filter (· ≠ [])).map String.ofList

/-- The path starts at the root. -/
def isAbsolute (path : String) : Bool := Text.startsWith ['/'] path.toList

/-- Adds a component to a clean path, whose components come last one first. -/
def push (absolute : Bool) (done : List String) (c : String) : List String :=
  if c = "." then done
  else if c = ".." then
    match done with
    | [] => if absolute then [] else [".."]
    | d :: rest => if d = ".." then ".." :: done else rest
  else c :: done

/-- The shortest path equivalent to the given one. -/
def clean (path : String) : String :=
  let absolute := isAbsolute path
  let parts := ((components path).foldl (push absolute) []).reverse
  let joined := String.intercalate "/" parts
  if absolute then "/" ++ joined else if joined = "" then "." else joined

/-- The clean path of the nonempty pieces, one below the other. -/
def join (pieces : List String) : String :=
  let pieces := pieces.filter (· ≠ "")
  if pieces.isEmpty then "" else clean (String.intercalate "/" pieces)

/-- The characters after the last slash. -/
def baseChars (path : String) : List Char := (path.toList.reverse.takeWhile (· ≠ '/')).reverse

/-- The clean path of all but the last component. -/
def dir (path : String) : String :=
  clean (String.ofList (path.toList.take (path.toList.length - (baseChars path).length)))

/-- The last dot of the last component and what follows it, empty when there is no dot. -/
def extension (path : String) : String :=
  let base := baseChars path
  if base.contains '.' then
    String.ofList ('.' :: (base.reverse.takeWhile (· ≠ '.')).reverse)
  else ""

/-- The path without its extension. -/
def withoutExtension (path : String) : String :=
  String.ofList (path.toList.take (path.toList.length - (extension path).toList.length))

/-- The starts of a path that end before a component, and the path itself; what stands before the
path is given backwards. -/
def frontsFrom (before : List Char) : List Char → List String
  | [] => []
  | [c] => [String.ofList (c :: before).reverse]
  | c :: d :: rest =>
    let more := frontsFrom (c :: before) (d :: rest)
    if c = '/' && d ≠ '/' then String.ofList (c :: before).reverse :: more else more

/-- The directories that a path leads through, shortest first, and the path itself. -/
def fronts (path : String) : List String := frontsFrom [] path.toList

end Path
end ApiDiagrams
