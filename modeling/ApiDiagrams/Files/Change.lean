import ApiDiagrams.Files.Tree

/-!
# Differences between file trees

* `Place.path`: the path of a place;
* `FileTree.Change`: one step from a tree to another;
* `FileTree.changes`: the steps from a tree to another.
-/

namespace ApiDiagrams

/-- The path of a place. -/
def Place.path : Place → String
  | "/" :: rest => "/" ++ String.intercalate "/" rest
  | p => String.intercalate "/" p

namespace FileTree

/-- One step from a tree to another. -/
inductive Change
  | makeDirectory (path : String)
  | writeFile (path : String) (content : ByteArray)
  | removeFile (path : String)
  | removeDirectory (path : String)
  deriving DecidableEq, Inhabited

/-- What brings an entry into being. -/
def Change.create (p : Place) : FileEntry → Change
  | .directory => .makeDirectory p.path
  | .file content => .writeFile p.path content

/-- What takes an entry away. -/
def Change.remove (p : Place) : FileEntry → Change
  | .directory => .removeDirectory p.path
  | .file _ => .removeFile p.path

/-- The steps from a tree to another. What stands deeper goes first, and what stands higher comes
first. -/
def changes (old new : FileTree) : List Change :=
  let gone := old.entries.filter fun (p, _) => (new.entries.lookup p).isNone
  let fresh := new.entries.filter fun (p, e) => old.entries.lookup p ≠ some e
  let deeperFirst := gone.mergeSort fun a b => a.1.length ≥ b.1.length
  let higherFirst := fresh.mergeSort fun a b => a.1.length ≤ b.1.length
  deeperFirst.map (fun (p, e) => Change.remove p e) ++
    higherFirst.map (fun (p, e) => Change.create p e)

end FileTree
end ApiDiagrams
