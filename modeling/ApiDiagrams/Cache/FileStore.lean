import ApiDiagrams.Cache.Entry
import ApiDiagrams.Cache.Key
import ApiDiagrams.Cache.Store

/-!
# The file store

Each entry is a file of its own: the hash of its key gives the directory and the name. Files are
first written beside their place and then moved, so that no reader sees half of one.

* `FileStore`: a directory with a hash;
* `FileStore.Disk`: what can go wrong when a file is written;
* `FileStore.get`, `FileStore.set`, `FileStore.delete`, `FileStore.clear`: the operations;
* `FileStore.openAt`: makes the directory; `FileStore.store`: the operations as a `Store`.
-/

namespace ApiDiagrams
namespace Cache

/-- A directory of entries. -/
structure FileStore where
  dir : String
  digest : Digest

namespace FileStore

/-- The directory of a key's entry. -/
def entryDir (s : FileStore) (key : String) : String :=
  let h := (s.digest key.toUTF8).toList
  Path.join [s.dir, String.ofList (h.take 2)]

/-- The file of a key's entry. -/
def entryPath (s : FileStore) (key : String) : String :=
  let h := (s.digest key.toUTF8).toList
  Path.join [s.dir, String.ofList (h.take 2), String.ofList (h.drop 2) ++ ".json"]

/-- The data under a key. An entry that is damaged, expired or of another key is removed. -/
def get (s : FileStore) (key : String) : Effect (Except Fault (Option ByteArray)) := do
  let path := s.entryPath key
  match (← MonadState.get).files.read path with
  | .error .missing => return .ok none
  | .error e => return .error (e.readFault path)
  | .ok bytes =>
    let now ← Effect.clock
    match Entry.parse? bytes with
    | some e =>
      if e.key = key && !e.isExpired now then return .ok (some e.data)
      else
        let _ ← Effect.onFiles (·.remove path)
        return .ok none
    | none =>
      let _ ← Effect.onFiles (·.remove path)
      return .ok none

/-- The name of a file that is about to be moved. -/
def temporaryName (n : Nat) : String := ".tmp-" ++ toString n

/-- No file of a directory has the temporary name of a number. -/
def isFree (t : FileTree) (dir : String) (n : Nat) : Bool :=
  match t.stat (Path.join [dir, temporaryName n]) with
  | .ok _ => false
  | .error _ => true

/-- The first number that is free. -/
def freshNumber (t : FileTree) (dir : String) : Nat :=
  ((List.range (t.entries.length + 1)).find? (isFree t dir)).getD 0

/-- The steps of storing data that can fail. -/
inductive Disk.Step
  | encode
  | makeDirs
  | create
  | write
  | close
  | move
  deriving DecidableEq, Repr

/-- What the operating system decides when data are stored, besides what it finds among the files:
which steps fail for reasons of its own, how far they get, and a name. -/
structure Disk where
  fails : Disk.Step → Option Fault := fun _ => none
  /-- How many of the directories on the way there are when making them fails. -/
  made : Nat := 0
  /-- How many bytes are there when writing them fails. -/
  written : Nat := 0
  /-- The number of the temporary file. -/
  number : FileTree → (dir : String) → Nat := freshNumber

namespace Disk

/-- Makes a directory and those above it. Those that could be made stay when one could not. -/
def makeDirs (d : Disk) (t : FileTree) (dir : String) : FileTree × Except Fault Unit :=
  match d.fails .makeDirs with
  | some f => ((t.makeEach ((Path.fronts dir).take d.made)).1, .error f)
  | none =>
    let (t, result) := t.makeDirs dir
    (t, result.mapError fun (front, e) => e.fault "mkdir" front)

/-- Makes an empty file where there is none, on the way to `path`. -/
def create (d : Disk) (t : FileTree) (temporary path : String) : Except Fault FileTree :=
  match d.fails .create with
  | some f => .error f
  | none =>
    match t.stat temporary with
    | .ok _ => .error (FileFailure.alreadyThere.fault "write" path)
    | .error _ => (t.write temporary .empty).mapError (·.fault "write" path)

/-- Fills a file. Some of the content may be there when that fails. -/
def write (d : Disk) (t : FileTree) (temporary path : String) (content : ByteArray) :
    FileTree × Except Fault Unit :=
  match d.fails .write with
  | some f => ((t.write temporary (content.extract 0 d.written)).toOption.getD t, .error f)
  | none =>
    match t.write temporary content with
    | .ok t => (t, .ok ())
    | .error e => (t, .error (e.fault "write" path))

/-- Moves a file to its place. -/
def move (d : Disk) (t : FileTree) (temporary path : String) : Except Fault FileTree :=
  match d.fails .move with
  | some f => .error f
  | none => (t.rename temporary path).mapError (·.fault "write" path)

/-- Takes a temporary file away again. -/
def discard (t : FileTree) (temporary : String) : FileTree := (t.remove temporary).toOption.getD t

/-- Writes a file beside its place and moves it there. A file that cannot be filled or closed is
taken away again; one that cannot be moved stays. -/
def place (d : Disk) (t : FileTree) (dir path : String) (content : ByteArray) :
    FileTree × Except (Step × Fault) Unit :=
  let temporary := Path.join [dir, temporaryName (d.number t dir)]
  match d.create t temporary path with
  | .error f => (t, .error (.create, f))
  | .ok t =>
    match d.write t temporary path content with
    | (t, .error f) => (discard t temporary, .error (.write, f))
    | (t, .ok ()) =>
      match d.fails .close with
      | some f => (discard t temporary, .error (.close, f))
      | none =>
        match d.move t temporary path with
        | .error f => (t, .error (.move, f))
        | .ok t => (t, .ok ())

end Disk

/-- The words for an entry whose times cannot be written. -/
def yearFault : Fault :=
  .plain ("json: error calling MarshalJSON for type time.Time: " ++
    "Time.MarshalJSON: year outside of range [0,9999]")

/-- Keeps data under a key, on a disk. A step that fails is told. -/
def setOn (s : FileStore) (d : Disk) (key : String) (data : ByteArray) (ttl : Int) :
    Effect (Except (Disk.Step × Fault) Unit) := do
  let now ← Effect.clock
  let expiresAt := if ttl > 0 then now + ttl else Time.Moment.zero
  let e : Entry := { key, data, storedAt := now, expiresAt }
  if !e.isWritable then return .error (.encode, yearFault)
  let dir := s.entryDir key
  let w ← MonadState.get
  match d.makeDirs w.files dir with
  | (files, .error f) =>
    MonadState.set { w with files }
    return .error (.makeDirs, f)
  | (files, .ok ()) =>
    let (files, result) := d.place files dir (s.entryPath key) (String.ofList e.text).toUTF8
    MonadState.set { w with files }
    return result

/-- Keeps data under a key. -/
def set (s : FileStore) (key : String) (data : ByteArray) (ttl : Int) :
    Effect (Except Fault Unit) := do
  return (← s.setOn {} key data ttl).mapError (·.2)

/-- Forgets a key. -/
def delete (s : FileStore) (key : String) : Effect (Except Fault Unit) := do
  let path := s.entryPath key
  match ← Effect.onFiles (·.remove path) with
  | .ok () | .error .missing => return .ok ()
  | .error e => return .error (e.fault "remove" path)

/-- The name consists of `n` digits of a hash. -/
def isHashName (n : Nat) (name : List Char) : Bool :=
  name.length == n && name.all fun c => Text.isDigit c || ('a' ≤ c && c ≤ 'f')

/-- The name of an entry's file. -/
def isEntryName (name : String) : Bool :=
  match Text.startsWith? ".json".toList.reverse name.toList.reverse with
  | some stem => isHashName 62 stem
  | none => false

/-- Removes the entries among the files of a directory; `removed` were removed before. -/
def clearFiles (dir : String) : (removed : Nat) → List (String × FileEntry) →
    Effect (Nat × Except Fault Unit)
  | removed, [] => return (removed, .ok ())
  | removed, (name, entry) :: rest => do
    if (← MonadState.get).cancelled then return (removed, .error .cancelled)
    else if entry = .directory || !isEntryName name then clearFiles dir removed rest
    else
      let path := Path.join [dir, name]
      match ← Effect.onFiles (·.remove path) with
      | .error e => return (removed, .error (e.fault "remove" path))
      | .ok () => clearFiles dir (removed + 1) rest

/-- Removes the entries below directories, and the directories that are empty then. -/
def clearDirs (s : FileStore) : (removed : Nat) → List (String × FileEntry) →
    Effect (Nat × Except Fault Unit)
  | removed, [] => return (removed, .ok ())
  | removed, (name, entry) :: rest => do
    if entry ≠ .directory || !isHashName 2 name.toList then clearDirs s removed rest
    else
      let dir := Path.join [s.dir, name]
      match (← MonadState.get).files.list dir with
      | .error e => return (removed, .error (e.fault "open" dir))
      | .ok entries =>
        match ← clearFiles dir removed entries with
        | (removed, .error f) => return (removed, .error f)
        | (removed, .ok ()) =>
          let _ ← Effect.onFiles (·.remove dir)
          clearDirs s removed rest

/-- Removes all entries and nothing else. -/
def clear (s : FileStore) : Effect (Nat × Except Fault Unit) := do
  match (← MonadState.get).files.list s.dir with
  | .error .missing => return (0, .ok ())
  | .error e => return (0, .error (e.fault "open" s.dir))
  | .ok entries => clearDirs s 0 entries

/-- Makes the directory of a store. -/
def openAt (digest : Digest) (dir : String) : Effect (Except Fault FileStore) := do
  match ← Effect.makeDirs dir with
  | .error f => return .error (.wrapped .cache ("create cache directory " ++ dir) f)
  | .ok () => return .ok { dir, digest }

/-- The operations as a store. -/
def store (s : FileStore) : Store where
  get := s.get
  set := s.set
  delete := s.delete
  clear := s.clear

end FileStore
end Cache
end ApiDiagrams
