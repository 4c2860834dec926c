import ApiDiagrams.CommandLine.Reach
import ApiDiagrams.CommandLine.Run
import ApiDiagrams.Files.Change
import Std.Time.DateTime.Timestamp

/-!
# The program

Reads what a command may look at, runs the command on that, and carries out what it did: the texts
that it printed and the files that it changed.
-/

namespace ApiDiagrams
namespace Program

/-- Adds to a tree what stands at a path and, down to a depth, below it. -/
def survey : Nat → FileTree → String → IO FileTree
  | depth, t, path => do
    match ← (IO.FS.readBinFile path).toBaseIO with
    | .ok content => return t.populate [(path, content)]
    | .error _ =>
      match ← (IO.FS.realPath path).toBaseIO with
      | .error _ => return t
      | .ok place =>
        if ← place.isDir then
          let t := t.populate [(path ++ "/", .empty)]
          match depth with
          | 0 => return t
          | depth + 1 =>
            let names := (← place.readDir).toList.map (·.fileName)
            names.foldlM (fun t name => survey depth t (Path.join [path, name])) t
        else return t

/-- Adds to a tree what stands at paths, and the directories that the paths go through. -/
def surveyAll (depth : Nat) (t : FileTree) (paths : List String) : IO FileTree := do
  let t ← (paths.map Path.dir).foldlM (survey 0) t
  paths.foldlM (survey depth) t

/-- The world before a command runs. The store of laid out diagrams has directories of entries, so
it is read down to the second level. -/
def begin (args : List String) : IO World := do
  let env ← Config.environmentNames.filterMapM fun name => do
    return (← IO.getEnv name).map fun value => (name, ↑value)
  let now := (← Std.Time.Timestamp.now).toNanosecondsSinceUnixEpoch.val
  let w : World := { env, now }
  let (sources, w) := CommandLine.settingsPaths.run w
  let files ← surveyAll 0 w.files (CommandLine.argumentPaths args ++ sources)
  let w := { w with files }
  let (settled, _) := (CommandLine.settledPaths args).run w
  return { w with files := ← surveyAll 2 w.files settled }

/-- Carries out a change of the files. -/
def apply : FileTree.Change → IO Unit
  | .makeDirectory path => IO.FS.createDirAll path
  | .writeFile path content => IO.FS.writeBinFile path content
  | .removeFile path => IO.FS.removeFile path
  | .removeDirectory path => IO.FS.removeDir path

/-- Carries out what a command did. -/
def finish (before after : World) : IO Unit := do
  (before.files.changes after.files).forM apply
  IO.print after.printed
  IO.eprint after.displayed
  after.log.forM fun r => IO.eprintln r.line

end Program
end ApiDiagrams

open ApiDiagrams in
/-- Runs the command that the arguments ask for. -/
def main (args : List String) : IO UInt32 := do
  let before ← Program.begin args
  let (result, after) := (CommandLine.run none args).run before
  Program.finish before after
  match result with
  | .ok () => return 0
  | .error f =>
    IO.eprintln ("Error: " ++ f.text)
    return 1
