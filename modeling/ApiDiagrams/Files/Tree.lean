import ApiDiagrams.Data.Word
import ApiDiagrams.Fault
import ApiDiagrams.Files.Path

/-!
# File trees

The files below a working directory, as a value. A path is looked up component by component, the
way an operating system does it. What lies above the working directory is empty; of what lies below
the root of the file system only a few places are known to stand. There are no symbolic links, so
that each place has one path without dots, and no file of a special kind.

* `FileTree`: directories and files;
* `FileTree.read`, `FileTree.write`, `FileTree.makeDirs`, `FileTree.remove`, `FileTree.removeAll`,
  `FileTree.rename`, `FileTree.list`: the operations, each failing as the operating system's does;
* `FileTree.checkPath`, `FileTree.nameFits`: the bounds on paths and on names.
-/

namespace ApiDiagrams

/-- What stands at a place in a file tree. A link is none of these. -/
inductive FileEntry
  | file (content : ByteArray)
  | directory
  deriving DecidableEq, Inhabited

/-- Why an operation on files failed. -/
inductive FileFailure
  | missing
  | notDirectory
  | isDirectory
  | notEmpty
  | alreadyThere
  /-- A name or a path is too long. -/
  | tooLong
  /-- The path is none: it holds a zero byte. -/
  | invalid
  deriving DecidableEq, Repr, Inhabited

namespace FileFailure

/-- The operating system's words. -/
def text : FileFailure → String
  | .missing => "no such file or directory"
  | .notDirectory => "not a directory"
  | .isDirectory => "is a directory"
  | .notEmpty => "directory not empty"
  | .alreadyThere => "file exists"
  | .tooLong => "file name too long"
  | .invalid => "invalid argument"

/-- The failure of an operation on a path as a fault from outside. -/
def fault (f : FileFailure) (operation path : String) : Fault :=
  .plain (operation ++ " " ++ path ++ ": " ++ f.text)

/-- The failure to read a file as a fault from outside. A directory can be opened, but not read. -/
def readFault (f : FileFailure) (path : String) : Fault :=
  f.fault (if f = .isDirectory then "read" else "open") path

end FileFailure

/-- A place in a file tree: the components of its path from the working directory, or from the root
when the first one is a slash. -/
abbrev Place := List String

/-- The files and directories below a working directory. -/
structure FileTree where
  entries : List (Place × FileEntry) := []
  deriving DecidableEq, Inhabited

namespace FileTree

/-- The place of the root. -/
def root : Place := ["/"]

/-- The places that stand in every tree: the working directory, what lies above it, the root, and
the file that is always empty. -/
def standing? (p : Place) : Option FileEntry :=
  if p.all (· == "..") || p = root || p = ["/", "dev"] || p = ["/", "tmp"] then some .directory
  else if p = ["/", "dev", "null"] then some (.file .empty)
  else none

/-- What stands at a place. -/
def get? (t : FileTree) (p : Place) : Option FileEntry :=
  (standing? p).or (t.entries.lookup p)

/-- Puts an entry at a place. -/
def put (t : FileTree) (p : Place) (e : FileEntry) : FileTree :=
  if (t.entries.lookup p).isSome then
    ⟨t.entries.map fun (q, old) => if q = p then (q, e) else (q, old)⟩
  else ⟨t.entries ++ [(p, e)]⟩

/-- Takes away what stands at a place. -/
def drop (t : FileTree) (p : Place) : FileTree := ⟨t.entries.filter fun (q, _) => q ≠ p⟩

/-- Takes away what stands at a place or below it. -/
def dropBelow (t : FileTree) (p : Place) : FileTree :=
  ⟨t.entries.filter fun (q, _) => !p.isPrefixOf q⟩

/-- The components of a path as they are looked up: a slash at the end asks for a directory. -/
def steps (path : String) : List String :=
  Path.components path ++ (if Text.endsWith ['/'] path.toList then ["."] else [])

/-- The place one step further. -/
def advance (p : Place) (step : String) : Place :=
  if step = "." then p
  else if step = ".." then
    if p = root then p else if p.all (· == "..") then ".." :: p else p.dropLast
  else p ++ [step]

/-- The first length in bytes that is too large for a name. -/
def nameBound : Nat := 256

/-- The first length in bytes that is too large for a path. -/
def pathBound : Nat := 4096

/-- A name is short enough. -/
def nameFits (name : String) : Bool := name.utf8ByteSize < nameBound

/-- What a path must be before any of it is looked up. -/
def checkPath (path : String) : Except FileFailure Unit :=
  if path.toList.any (·.toNat = 0) then .error .invalid
  else if path = "" then .error .missing
  else if path.utf8ByteSize ≥ pathBound then .error .tooLong
  else .ok ()

/-- Follows a path from a place; all but the last place on the way must be directories. -/
def follow (t : FileTree) : Place → List String → Except FileFailure Place
  | p, [] => .ok p
  | p, step :: rest =>
    match t.get? p with
    | some .directory =>
      if nameFits step then t.follow (advance p step) rest else .error .tooLong
    | some (.file _) => .error .notDirectory
    | none => .error .missing

/-- The place where a path starts. -/
def origin (path : String) : Place := if Path.isAbsolute path then root else []

/-- The place of a path. -/
def locate (t : FileTree) (path : String) : Except FileFailure Place := do
  checkPath path
  t.follow (origin path) (steps path)

/-- What stands at a path. -/
def stat (t : FileTree) (path : String) : Except FileFailure FileEntry := do
  match t.get? (← t.locate path) with
  | some e => return e
  | none => .error .missing

/-- The content of a file. -/
def read (t : FileTree) (path : String) : Except FileFailure ByteArray := do
  match ← t.stat path with
  | .file content => return content
  | .directory => .error .isDirectory

/-- Writes a file whose directory exists. -/
def write (t : FileTree) (path : String) (content : ByteArray) : Except FileFailure FileTree := do
  let p ← t.locate path
  match t.get? p with
  | some .directory => .error .isDirectory
  | _ => return t.put p (.file content)

/-- Makes a directory inside one that exists. A slash at the end of the path does not matter. -/
def makeDir (t : FileTree) (path : String) : Except FileFailure FileTree := do
  checkPath path
  let p ← t.follow (origin path) (Path.components path)
  if (t.get? p).isSome then .error .alreadyThere else return t.put p .directory

/-- Makes those directories of a list that are missing, one after the other. The first one that
cannot be made ends it; the path of that one is told, and those before it stay. -/
def makeEach (t : FileTree) : List String → FileTree × Except (String × FileFailure) Unit
  | [] => (t, .ok ())
  | path :: rest =>
    match t.stat path with
    | .ok .directory => t.makeEach rest
    | .ok (.file _) => (t, .error (path, .notDirectory))
    | .error _ =>
      match t.makeDir path with
      | .ok t => t.makeEach rest
      | .error f => (t, .error (path, f))

/-- Makes a directory and those above it, as far as they are missing. -/
def makeDirs (t : FileTree) (path : String) : FileTree × Except (String × FileFailure) Unit :=
  if path = "" then (t, .error (path, .missing)) else t.makeEach (Path.fronts path)

/-- The names in a directory, in order. -/
def list (t : FileTree) (path : String) : Except FileFailure (List (String × FileEntry)) := do
  let p ← t.locate path
  match t.get? p with
  | some .directory =>
    let inside := t.entries.filterMap fun (q, e) =>
      if p.isPrefixOf q && q.length == p.length + 1 then some (q.getLastD "", e) else none
    return inside.mergeSort fun a b => a.1 ≤ b.1
  | some (.file _) => .error .notDirectory
  | none => .error .missing

/-- Removes a file or an empty directory. -/
def remove (t : FileTree) (path : String) : Except FileFailure FileTree := do
  let p ← t.locate path
  match t.get? p with
  | none => .error .missing
  | some (.file _) => return t.drop p
  | some .directory =>
    if t.entries.any fun (q, _) => q ≠ p && p.isPrefixOf q then .error .notEmpty
    else return t.drop p

/-- Removes whatever stands at a path, with all that is below it. -/
def removeAll (t : FileTree) (path : String) : FileTree :=
  match t.locate path with
  | .ok p => t.dropBelow p
  | .error _ => t

/-- Moves a file over another place; a directory is never replaced. -/
def rename (t : FileTree) (source target : String) : Except FileFailure FileTree := do
  let p ← t.locate source
  let content ← t.read source
  let q ← t.locate target
  match t.get? q with
  | some .directory => .error .isDirectory
  | _ => return (t.drop p).put q (.file content)

/-- Writes files given with their paths, making directories as needed. A path that ends in a slash
is an empty directory. -/
def populate (t : FileTree) (files : List (String × ByteArray)) : FileTree :=
  files.foldl
    (fun t (path, content) =>
      if Text.endsWith ['/'] path.toList then (t.makeDirs path).1
      else
        let t := (t.makeDirs (Path.dir path)).1
        (t.write path content).toOption.getD t)
    t

/-- The places below the working directory. -/
def visible (t : FileTree) : List (Place × FileEntry) :=
  t.entries.filter fun (p, _) => p.head? ≠ some ".." && p.head? ≠ some "/"

end FileTree
end ApiDiagrams
