import ApiDiagrams.Fault
import ApiDiagrams.Text.Blank
import ApiDiagrams.Text.Raw

/-!
# What may be given from outside

Names, output formats, layout directions and output paths are checked before they are used.

* `isDottedName`, `checkName`: identifiers joined by dots, at most 512 bytes;
* `isFormat`, `checkFormat`: the plain format names of the layout tool;
* `checkDirection`: one of the four directions, or none;
* `checkPath`: a relative path that stays below its directory.
-/

namespace ApiDiagrams
namespace Validation

open Text

/-- Identifiers joined by dots. -/
def isDottedName (name : List Char) : Bool :=
  (splitOn '.' name).all fun part => part ≠ [] && part.all isWord

/-- Checks a fully qualified name of an entity. A name that passes has no stray bytes. -/
def checkName (name : Raw) : Except Fault Unit :=
  if name.units.isEmpty then .error (.coded .invalidName "name cannot be empty")
  else if name.byteSize > 512 then
    .error (.coded .invalidName "name too long (max 512 characters)")
  else if !name.text?.any fun s => isDottedName s.toList then
    .error (.coded .invalidName ("invalid dotted name: " ++ name.quote))
  else .ok ()

/-- A character of a format name. -/
def isFormatChar (c : Char) : Bool := isLower c || isDigit c || c == '_'

/-- A format name: pieces joined by colons, the first of them starting with a letter. -/
def isFormat (format : List Char) : Bool :=
  (splitOn ':' format).all (fun piece => piece ≠ [] && piece.all isFormatChar) &&
    (format.head?.any isLower)

/-- Checks an output format, so that it can never smuggle further arguments to the tool. -/
def checkFormat (format : Raw) : Except Fault Unit :=
  if format.units.isEmpty then .error (.coded .invalidFormat "format cannot be empty")
  else if !format.text?.any fun s => isFormat s.toList then
    .error (.coded .invalidFormat ("invalid output format: " ++ format.quote))
  else .ok ()

/-- The layout directions. -/
def directions : List String := ["TB", "BT", "LR", "RL"]

/-- Checks a layout direction; none at all means the builder's own. -/
def checkDirection (dir : String) : Except Fault Unit :=
  if dir = "" || directions.contains dir then .ok ()
  else .error (.coded .invalidDirection
    ("invalid direction: " ++ dir ++ " (must be TB, BT, LR or RL)"))

/-- Checks a relative output path: not too long, no controls, no way up, no backslash. -/
def checkPath (path : Raw) : Except Fault Unit :=
  let invalid (message : String) : Except Fault Unit := .error (.coded .invalidPath message)
  let chars := path.lossy.toList
  if chars = [] then invalid "path cannot be empty"
  else if path.byteSize > 500 then invalid "path too long (max 500 characters)"
  else if chars.any isControl then invalid "path contains invalid characters"
  else if startsWith ['/'] chars then invalid "path must be relative (cannot start with /)"
  else if contains ['.', '.'] chars then
    invalid "path cannot contain path traversal sequences (..)"
  else if contains ['\\'] chars then invalid "path cannot contain backslashes"
  else .ok ()

end Validation
end ApiDiagrams
