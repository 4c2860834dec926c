import ApiDiagrams.Cache.FileStore
import ApiDiagrams.Proofs.Effect
import ApiDiagrams.Proofs.Files.Removal
import ApiDiagrams.Proofs.Text.Ascii

/-!
# What the operations of the file store do to files

A key has its own file two steps below the directory of the store, and keys share a file exactly
when their hashes agree. Each operation is described by what it does to the files of all keys.

* `FileStore.IsProper`: a store with a directory and a hash of sixty-four digits;
* `FileStore.entryPlace`, `FileStore.entryPlace_inj`: the place of a key's file;
* `FileStore.fresh?`, `FileStore.get_run_of_read`: what a file gives for a key, and that a file that
  gives nothing is removed;
* `FileStore.place_sound`: writing a file on a disk that does not fail;
* `FileStore.clearFiles_run_of_ok`: clearing the files of one directory;
* `FileStore.Stored`, `FileStore.Forgotten`, `FileStore.Cleared`: what the other operations leave.
-/

namespace ApiDiagrams
namespace Cache
namespace FileStore

open FileTree (placeOf)

/-! ### The file of a key -/

/-- A store with a directory and a hash of sixty-four digits. -/
structure IsProper (s : FileStore) : Prop where
  named : s.dir ≠ ""
  hash : ∀ bytes, isHashName 64 (s.digest bytes).toList = true

/-- The name of the directory of a key's file. -/
def subName (s : FileStore) (key : String) : String :=
  String.ofList ((s.digest key.toUTF8).toList.take 2)

/-- The name of a key's file. -/
def fileName (s : FileStore) (key : String) : String :=
  String.ofList ((s.digest key.toUTF8).toList.drop 2) ++ ".json"

/-- The place of a key's file. -/
def entryPlace (s : FileStore) (key : String) : Place :=
  placeOf s.dir ++ [s.subName key] ++ [s.fileName key]

theorem isHashName_iff {n : ℕ} {name : List Char} : isHashName n name = true ↔
    name.length = n ∧ ∀ c ∈ name, (Text.isDigit c || ('a' ≤ c && c ≤ 'f')) = true := by
  simp [isHashName]

/-- A piece of a hash is a hash name of its own. -/
theorem isHashName_of_sublist {n : ℕ} {name piece : List Char} (h : isHashName n name = true)
    (hp : piece.Sublist name) : isHashName piece.length piece = true := by
  rw [isHashName_iff] at h ⊢
  exact ⟨rfl, fun c hc => h.2 c (hp.subset hc)⟩

/-- The first character of a hash name is no dot, and none is a slash. -/
theorem head_of_isHashName {n : ℕ} {name : List Char} (h : isHashName (n + 1) name = true) :
    ∃ c rest, name = c :: rest ∧ c ≠ '.' ∧ '/' ∉ name := by
  obtain ⟨hlen, hdigits⟩ := isHashName_iff.1 h
  have hno : ∀ c : Char, (Text.isDigit c || ('a' ≤ c && c ≤ 'f')) = false → c ∉ name := by
    intro c hc hmem
    rw [hdigits c hmem] at hc
    cases hc
  obtain ⟨c, rest, rfl⟩ := List.exists_cons_of_length_eq_add_one hlen
  refine ⟨c, rest, rfl, ?_, hno '/' (by decide)⟩
  rintro rfl
  exact hno '.' (by decide) List.mem_cons_self

/-- The name of the directory of some key's file. -/
structure IsSubName (sub : String) : Prop where
  digits : isHashName 2 sub.toList = true

theorem IsSubName.isName {sub : String} (h : IsSubName sub) : Path.IsName sub := by
  obtain ⟨c, rest, hname, hc, hslash⟩ := head_of_isHashName h.digits
  exact Path.isName_of_head (by rw [hname]; rfl) hc hslash

theorem IsSubName.standing? {sub : String} (h : IsSubName sub) (p : Place) :
    FileTree.standing? (p ++ [sub]) = none := by
  have hlen : sub.toList.length = 2 := (isHashName_iff.1 h.digits).1
  refine FileTree.standing?_concat (fun hmem => ?_) p
  have hlength : ∀ name ∈ ["..", "/", "dev", "tmp", "null"],
      name.toList.length = 2 → name = ".." := by decide
  exact h.isName.ne_dots (hlength _ hmem hlen)

/-- The name of some key's file. -/
structure IsEntryName (name : String) : Prop where
  stem : ∃ stem, isHashName 62 stem = true ∧ name.toList = stem ++ ".json".toList

theorem isEntryName_iff {name : String} : isEntryName name = true ↔ IsEntryName name := by
  unfold isEntryName
  constructor
  · intro h
    split at h
    next stem hstem =>
      have htext := Text.append_of_startsWith? hstem
      refine ⟨stem.reverse, ?_, ?_⟩
      · simpa [isHashName] using h
      · rw [← List.reverse_reverse name.toList, htext, List.reverse_append, List.reverse_reverse]
    next => cases h
  · rintro ⟨stem, hstem, hname⟩
    rw [hname, List.reverse_append, Text.startsWith?_append]
    simpa [isHashName] using hstem

theorem IsEntryName.head {name : String} (h : IsEntryName name) :
    ∃ c, name.toList.head? = some c ∧ c ≠ '.' := by
  obtain ⟨stem, hstem, hname⟩ := h.stem
  obtain ⟨c, rest, rfl, hc, -⟩ := head_of_isHashName hstem
  exact ⟨c, by rw [hname]; rfl, hc⟩

theorem IsEntryName.isName {name : String} (h : IsEntryName name) : Path.IsName name := by
  obtain ⟨c, hhead, hc⟩ := h.head
  obtain ⟨stem, hstem, hname⟩ := h.stem
  obtain ⟨-, -, -, -, hslash⟩ := head_of_isHashName hstem
  refine Path.isName_of_head hhead hc ?_
  rw [hname, List.mem_append, not_or]
  exact ⟨hslash, by decide⟩

theorem IsEntryName.standing? {name : String} (h : IsEntryName name) (p : Place) :
    FileTree.standing? (p ++ [name]) = none := by
  obtain ⟨stem, hstem, hname⟩ := h.stem
  have hlen : name.toList.length = 67 := by
    rw [hname, List.length_append, (isHashName_iff.1 hstem).1]
    rfl
  refine FileTree.standing?_concat (fun hmem => ?_) p
  have hshort : ∀ name ∈ ["..", "/", "dev", "tmp", "null"], name.toList.length < 67 := by decide
  exact absurd hlen (hshort _ hmem).ne

variable {s : FileStore} {key other : String}

namespace IsProper

theorem isSubName (h : s.IsProper) (key : String) : IsSubName (s.subName key) := by
  have hhash := h.hash key.toUTF8
  have hlen : ((s.digest key.toUTF8).toList.take 2).length = 2 := by
    rw [List.length_take, (isHashName_iff.1 hhash).1]
    rfl
  have hpiece := isHashName_of_sublist hhash (List.take_sublist 2 _)
  constructor
  rw [subName, String.toList_ofList]
  rwa [hlen] at hpiece

theorem isEntryName (h : s.IsProper) (key : String) : IsEntryName (s.fileName key) := by
  have hhash := h.hash key.toUTF8
  have hlen : ((s.digest key.toUTF8).toList.drop 2).length = 62 := by
    rw [List.length_drop, (isHashName_iff.1 hhash).1]
  have hpiece := isHashName_of_sublist hhash (List.drop_sublist 2 _)
  refine ⟨(s.digest key.toUTF8).toList.drop 2, ?_, ?_⟩
  · rwa [hlen] at hpiece
  · rw [fileName, String.toList_append, String.toList_ofList]

theorem entryDir_eq (h : s.IsProper) (key : String) : s.entryDir key ≠ "" ∧
    placeOf (s.entryDir key) = placeOf s.dir ++ [s.subName key] :=
  ⟨Path.join_ne_empty h.named (h.isSubName key).isName.piece.1,
    FileTree.placeOf_join h.named (h.isSubName key).isName⟩

theorem entryPath_eq (h : s.IsProper) (key : String) :
    s.entryPath key = Path.join [s.entryDir key, s.fileName key] :=
  Path.join_triple h.named (h.isSubName key).isName (h.isEntryName key).isName

theorem placeOf_entryPath (h : s.IsProper) (key : String) :
    placeOf (s.entryPath key) = s.entryPlace key := by
  obtain ⟨hne, hplace⟩ := h.entryDir_eq key
  rw [h.entryPath_eq, FileTree.placeOf_join hne (h.isEntryName key).isName, hplace, entryPlace]

/-- Nothing stands at the place of a key's file from the start. -/
theorem standing?_entryPlace (h : s.IsProper) (key : String) :
    FileTree.standing? (s.entryPlace key) = none := (h.isEntryName key).standing? _

/-- A key's file can be reached in all trees that have the same directories, up to what stands in
the place of files. -/
theorem leads_congr (h : s.IsProper) {t t' : FileTree} (hl : t.Leads (s.entryPath key))
    (hd : ∀ q, (∀ other, q ≠ s.entryPlace other) → t.get? q = some .directory →
      t'.get? q = some .directory) : t'.Leads (s.entryPath key) := by
  obtain ⟨hne, hplace⟩ := h.entryDir_eq key
  rw [h.entryPath_eq] at hl ⊢
  refine hl.congr hne (h.isEntryName key).isName fun q hq => hd q fun other heq => ?_
  -- the directories on the way are not as deep as a file
  have hlen := hq.length_le
  rw [heq, hplace, entryPlace] at hlen
  simp at hlen

end IsProper

/-- Keys have the same file exactly when they have the same hash. -/
theorem entryPlace_inj (s : FileStore) {key other : String} :
    s.entryPlace key = s.entryPlace other ↔ s.digest key.toUTF8 = s.digest other.toUTF8 := by
  constructor
  · intro heq
    rw [entryPlace, entryPlace] at heq
    obtain ⟨hsub, hfile⟩ := List.append_inj' heq (by simp only [List.length_singleton])
    have htake : (s.digest key.toUTF8).toList.take 2 = (s.digest other.toUTF8).toList.take 2 := by
      simpa [subName, ← String.toList_inj] using hsub
    have hdrop : (s.digest key.toUTF8).toList.drop 2 = (s.digest other.toUTF8).toList.drop 2 := by
      simpa [fileName, ← String.toList_inj] using hfile
    rw [← String.toList_inj, ← List.take_append_drop 2 (s.digest key.toUTF8).toList, htake, hdrop,
      List.take_append_drop]
  · intro heq
    rw [entryPlace, entryPlace, subName, subName, fileName, fileName, heq]

/-! ### Reading a file -/

/-- The data that the bytes of a file give for a key at a time. -/
def fresh? (key : String) (now : ℤ) (bytes : ByteArray) : Option ByteArray :=
  match Entry.parse? bytes with
  | some e => if e.key = key && !e.isExpired now then some e.data else none
  | none => none

variable {w : World}

theorem get_run_of_error {e : FileFailure} (h : w.files.read (s.entryPath key) = .error e) :
    (s.get key).run w =
      (if e = .missing then .ok none else .error (e.readFault (s.entryPath key)), w) := by
  unfold get
  rw [Effect.run_bind, Effect.get_run]
  dsimp only
  rw [h]
  cases e <;> rfl

/-- A file that gives no data is removed. -/
theorem get_run_of_read {bytes : ByteArray} (h : w.files.read (s.entryPath key) = .ok bytes) :
    (s.get key).run w =
      match fresh? key w.now bytes with
      | some data => (.ok (some data), { w with now := w.now + Effect.tick })
      | none => (.ok none, { w with
          now := w.now + Effect.tick
          files := w.files.drop (placeOf (s.entryPath key)) }) := by
  have hremove : (Effect.onFiles (·.remove (s.entryPath key))).run
      { w with now := w.now + Effect.tick } = (.ok (), { w with
        now := w.now + Effect.tick
        files := w.files.drop (placeOf (s.entryPath key)) }) :=
    Effect.onFiles_run_ok (FileTree.remove_of_read h)
  unfold get fresh?
  rw [Effect.run_bind, Effect.get_run]
  dsimp only
  rw [h]
  dsimp only
  rw [Effect.run_bind, Effect.clock_run]
  dsimp only
  cases Entry.parse? bytes with
  | none =>
    dsimp only
    rw [Effect.run_bind, hremove]
    rfl
  | some e =>
    dsimp only
    split_ifs
    · rfl
    · rw [Effect.run_bind, hremove]
      rfl

theorem get_eq_some_iff {data : ByteArray} : ((s.get key).run w).1 = .ok (some data) ↔
    ∃ bytes, w.files.read (s.entryPath key) = .ok bytes ∧ fresh? key w.now bytes = some data := by
  cases hread : w.files.read (s.entryPath key) with
  | error e =>
    rw [get_run_of_error hread]
    constructor
    · intro h
      dsimp only at h
      split_ifs at h
      cases h
    · rintro ⟨bytes, h, -⟩
      cases h
  | ok bytes =>
    rw [get_run_of_read hread]
    cases hfresh : fresh? key w.now bytes <;> simp [hfresh]

/-! ### Writing a file -/

/-- The entry of data that are stored at a time. -/
def entryAt (key : String) (data : ByteArray) (ttl now : ℤ) : Entry where
  key
  data
  storedAt := now
  expiresAt := if ttl > 0 then now + ttl else Time.Moment.zero

/-- The file of a key has this content now, the files of other keys and all directories are as they
were. -/
structure Stored (s : FileStore) (key : String) (content : ByteArray) (t t' : FileTree) : Prop where
  read : t'.read (s.entryPath key) = .ok content
  files : ∀ other, s.entryPlace other ≠ s.entryPlace key → ∀ c,
    t'.get? (s.entryPlace other) = some (.file c) ↔ t.get? (s.entryPlace other) = some (.file c)
  directories : ∀ q, t.get? q = some .directory → t'.get? q = some .directory

theorem toList_temporaryName (n : ℕ) :
    (temporaryName n).toList = '.' :: 't' :: 'm' :: 'p' :: '-' :: Nat.toDigits 10 n := by
  simp [temporaryName]

theorem isName_temporaryName (n : ℕ) : Path.IsName (temporaryName n) := by
  have hne : ∀ other : String, other.toList.tail.head? ≠ some 't' → temporaryName n ≠ other := by
    rintro other ho rfl
    rw [toList_temporaryName] at ho
    exact ho rfl
  refine ⟨⟨hne "" (by decide), ?_⟩, hne "." (by decide), hne ".." (by decide)⟩
  rw [toList_temporaryName]
  intro hmem
  have hdigit : '/' ∈ Nat.toDigits 10 n := by simpa using hmem
  exact absurd (Text.isDigit_of_mem_toDigits hdigit) (by decide)

theorem standing?_temporaryName (n : ℕ) (p : Place) :
    FileTree.standing? (p ++ [temporaryName n]) = none := by
  refine FileTree.standing?_concat (fun hmem => ?_) p
  have hsecond : ∀ name ∈ ["..", "/", "dev", "tmp", "null"],
      name.toList.take 2 ≠ ['.', 't'] := by decide
  refine hsecond _ hmem ?_
  rw [toList_temporaryName]
  rfl

/-- A file that is about to be moved is the file of no key. -/
theorem IsProper.temporary_ne (h : s.IsProper) (n : ℕ) (key other : String) :
    placeOf (s.entryDir key) ++ [temporaryName n] ≠ s.entryPlace other := by
  intro heq
  rw [entryPlace] at heq
  have hname : temporaryName n = s.fileName other :=
    List.singleton_inj.1 (List.append_inj' heq (by simp only [List.length_singleton])).2
  obtain ⟨c, hhead, hc⟩ := (h.isEntryName other).head
  rw [← hname, toList_temporaryName] at hhead
  exact hc (Option.some.inj hhead).symm

theorem temporaryName_injective : Function.Injective temporaryName := by
  intro a b h
  have hlist := congrArg String.toList h
  rw [toList_temporaryName, toList_temporaryName] at hlist
  have hdigits : Nat.toDigits 10 a = Nat.toDigits 10 b := by simpa using hlist
  have hread := congrArg (Nat.ofDigitChars 10 · 0) hdigits
  simpa [Nat.ofDigitChars_ten_toDigits] using hread

theorem isFree_iff {t : FileTree} {dir : String} {n : ℕ} :
    isFree t dir n = true ↔ ∃ e, t.stat (Path.join [dir, temporaryName n]) = .error e := by
  unfold isFree
  cases t.stat (Path.join [dir, temporaryName n]) <;> simp

/-- A number that is not free belongs to one of the entries. -/
theorem mem_entries_of_not_isFree {dir : String} (hdir : dir ≠ "") {t : FileTree} {n : ℕ}
    (h : ¬ isFree t dir n = true) :
    placeOf dir ++ [temporaryName n] ∈ t.entries.map Prod.fst := by
  cases hstat : t.stat (Path.join [dir, temporaryName n]) with
  | error e => exact absurd (isFree_iff.2 ⟨e, hstat⟩) h
  | ok entry =>
    have hget := (FileTree.stat_eq_ok_iff.1 hstat).2
    rw [FileTree.placeOf_join hdir (isName_temporaryName n), FileTree.get?,
      standing?_temporaryName, Option.none_or] at hget
    obtain ⟨before, after, hentries, -⟩ := List.lookup_eq_some_iff.1 hget
    rw [hentries]
    simp

/-- There are more names to choose from than files. -/
theorem exists_stat_fresh {dir : String} (hdir : dir ≠ "") (t : FileTree) :
    ∃ e, t.stat (Path.join [dir, temporaryName (freshNumber t dir)]) = .error e := by
  unfold freshNumber
  cases hfind : (List.range (t.entries.length + 1)).find? (isFree t dir) with
  | some n => exact isFree_iff.1 (List.find?_some hfind)
  | none =>
    exfalso
    rw [List.find?_eq_none] at hfind
    have hsub : (List.range (t.entries.length + 1)).map
        (fun n => placeOf dir ++ [temporaryName n]) ⊆ t.entries.map Prod.fst := by
      intro p hp
      obtain ⟨n, hn, rfl⟩ := List.mem_map.1 hp
      exact mem_entries_of_not_isFree hdir (hfind n hn)
    have hnodup : ((List.range (t.entries.length + 1)).map
        (fun n => placeOf dir ++ [temporaryName n])).Nodup := by
      refine List.nodup_range.map fun a b h => ?_
      exact temporaryName_injective (List.singleton_inj.1 (List.append_cancel_left h))
    have hle := (List.subperm_of_subset hnodup hsub).length_le
    simp only [List.length_map, List.length_range] at hle
    omega

/-- The path of a file that is about to be moved, under a name that no file has. -/
def freshName (t : FileTree) (dir : String) : String :=
  Path.join [dir, temporaryName (freshNumber t dir)]

/-- Writes a file beside its place and moves it there, as a disk does that does not fail. -/
def place (t : FileTree) (dir path : String) (content : ByteArray) :
    FileTree × Except FileFailure Unit :=
  let temporary := freshName t dir
  match t.write temporary content with
  | .error e => (t, .error e)
  | .ok t =>
    match t.rename temporary path with
    | .error e => (t, .error e)
    | .ok t => (t, .ok ())

theorem place_sound {dir : String} (hdir : dir ≠ "") (t : FileTree) (path : String)
    (content : ByteArray) : (({} : Disk).place t dir path content).1 = (place t dir path content).1 ∧
      (({} : Disk).place t dir path content).2.mapError (·.2) =
        (place t dir path content).2.mapError (·.fault "write" path) := by
  obtain ⟨e, hstat⟩ := exists_stat_fresh hdir t
  unfold Disk.place place freshName Disk.create
  dsimp only
  rw [hstat]
  dsimp only
  cases hcreate : t.write (Path.join [dir, temporaryName (freshNumber t dir)]) .empty with
  | error e =>
    rw [FileTree.write_eq_error hcreate content]
    exact ⟨rfl, rfl⟩
  | ok t₁ =>
    have hwrite := FileTree.write_write hcreate content
    have hdirect : t.write (Path.join [dir, temporaryName (freshNumber t dir)]) content =
        .ok (t.put (placeOf (Path.join [dir, temporaryName (freshNumber t dir)]))
          (.file content)) :=
      FileTree.write_eq_ok_iff.2 ⟨(FileTree.write_eq_ok_iff.1 hcreate).1, rfl⟩
    rw [hdirect]
    simp only [Except.mapError, Disk.write, hwrite, Disk.move]
    cases FileTree.rename _ _ path with
    | error e => exact ⟨rfl, rfl⟩
    | ok t₂ => exact ⟨rfl, rfl⟩

theorem place_eq_ok {t t' : FileTree} {dir path : String} {content : ByteArray}
    (h : FileStore.place t dir path content = (t', .ok ())) :
    ∃ n t₁, t.write (Path.join [dir, temporaryName n]) content = .ok t₁ ∧
      t₁.rename (Path.join [dir, temporaryName n]) path = .ok t' := by
  obtain ⟨n, hn⟩ : ∃ n, freshName t dir = Path.join [dir, temporaryName n] := ⟨_, rfl⟩
  unfold FileStore.place at h
  rw [hn] at h
  dsimp only at h
  split at h
  next => cases h
  next t₁ hwrite =>
    split at h
    next => cases h
    next t₂ hrename =>
      cases h
      exact ⟨n, t₁, hwrite, hrename⟩

/-- What stands at each place after a file was written beside its place and moved there. -/
theorem get?_place (h : s.IsProper) {t t' : FileTree} {content : ByteArray}
    (hplace : FileStore.place t (s.entryDir key) (s.entryPath key) content = (t', .ok ())) :
    ∃ n, t.get? (placeOf (s.entryDir key) ++ [temporaryName n]) ≠ some .directory ∧
      t.get? (s.entryPlace key) ≠ some .directory ∧ t.Leads (s.entryPath key) ∧
      ∀ q, t'.get? q = if q = s.entryPlace key then some (.file content)
        else if q = placeOf (s.entryDir key) ++ [temporaryName n] then none else t.get? q := by
  obtain ⟨n, t₁, hwrite, hrename⟩ := place_eq_ok hplace
  obtain ⟨hne, -⟩ := h.entryDir_eq key
  have hplaceOf := FileTree.placeOf_join hne (isName_temporaryName n)
  obtain ⟨⟨hleads, hfree⟩, rfl⟩ := FileTree.write_eq_ok_iff.1 hwrite
  obtain ⟨content', hread, ⟨htarget, hfree'⟩, rfl⟩ := FileTree.rename_eq_ok_iff.1 hrename
  have hstanding := standing?_temporaryName n (placeOf (s.entryDir key))
  rw [hplaceOf] at hfree
  -- the file that is moved is the one that was written
  obtain rfl : content' = content := by
    have hcontent := (FileTree.read_eq_ok_iff.1 hread).2
    rw [FileTree.get?_put, hplaceOf, if_pos ⟨rfl, hstanding⟩] at hcontent
    simpa using hcontent.symm
  rw [h.placeOf_entryPath, FileTree.get?_put, hplaceOf,
    if_neg fun hq => h.temporary_ne n key key hq.1.symm] at hfree'
  refine ⟨n, hfree, hfree', ?_, fun q => ?_⟩
  · -- writing a file makes no directory
    rw [h.entryPath_eq] at htarget ⊢
    refine htarget.congr hne (h.isEntryName key).isName fun q _ hq => ?_
    rwa [← FileTree.directory_write_iff hwrite]
  · rw [FileTree.get?_put, h.placeOf_entryPath, FileTree.get?_drop, hplaceOf, FileTree.get?_put]
    simp only [h.standing?_entryPlace key, and_true]
    split_ifs with h1 h2 h3
    · rfl
    · rw [h2, hstanding]
    · exact absurd h3.1 h2
    · rfl

/-- A file that was written beside its place and moved there is stored, and so it is when its
directory was made before. -/
theorem stored_of_place (h : s.IsProper) {t t' : FileTree} {content : ByteArray}
    (hplace : FileStore.place (t.makeDirs (s.entryDir key)).1 (s.entryDir key) (s.entryPath key)
      content = (t', .ok ())) : s.Stored key content t t' := by
  obtain ⟨n, hfree, hfree', hleads, hget⟩ := get?_place h hplace
  have hmade := FileTree.made_makeDirs t (s.entryDir key)
  generalize (t.makeDirs (s.entryDir key)).1 = made at *
  -- a directory is neither the file nor the one that was moved
  have hdirectory : ∀ q, made.get? q = some .directory → t'.get? q = some .directory := by
    intro q hq
    rw [hget, if_neg, if_neg]
    · exact hq
    · exact fun heq => hfree (heq ▸ hq)
    · exact fun heq => hfree' (heq ▸ hq)
  refine ⟨?_, fun other hother c => ?_, fun q hq => ?_⟩
  · obtain ⟨hne, -⟩ := h.entryDir_eq key
    refine FileTree.read_eq_ok_iff.2 ⟨?_, ?_⟩
    · rw [h.entryPath_eq] at hleads ⊢
      exact hleads.congr hne (h.isEntryName key).isName fun q _ => hdirectory q
    · rw [h.placeOf_entryPath, hget, if_pos rfl]
  · rw [hget, if_neg hother, if_neg fun heq => h.temporary_ne n key other heq.symm]
    rcases hmade (s.entryPlace other) with heq | ⟨hnone, hdir, -⟩
    · rw [heq]
    · simp [hnone, hdir]
  · refine hdirectory q ?_
    rcases hmade q with heq | ⟨hnone, -⟩
    · rw [heq, hq]
    · rw [hnone] at hq
      cases hq

/-- The tree and the outcome after data were written beside their place and moved there. -/
def placed (s : FileStore) (t : FileTree) (key : String) (e : Entry) :
    FileTree × Except FileFailure Unit :=
  FileStore.place (t.makeDirs (s.entryDir key)).1 (s.entryDir key) (s.entryPath key)
    (String.ofList e.text).toUTF8

section Set

variable {data : ByteArray} {ttl : ℤ} {d : Disk} {t : FileTree}

theorem setOn_run_of_unwritable (h : (entryAt key data ttl w.now).isWritable = false) :
    (s.setOn d key data ttl).run w =
      (.error (.encode, yearFault), { w with now := w.now + Effect.tick }) := by
  unfold FileStore.setOn
  rw [Effect.run_bind, Effect.clock_run]
  dsimp only
  rw [← entryAt, if_pos (by simp [h])]
  rfl

theorem set_run (s : FileStore) (key : String) (data : ByteArray) (ttl : ℤ) (w : World) :
    (s.set key data ttl).run w = (((s.setOn {} key data ttl).run w).1.mapError (·.2),
      ((s.setOn {} key data ttl).run w).2) := rfl

theorem set_run_of_unwritable (h : (entryAt key data ttl w.now).isWritable = false) :
    (s.set key data ttl).run w = (.error yearFault, { w with now := w.now + Effect.tick }) := by
  rw [set_run, setOn_run_of_unwritable h]
  rfl

variable (h : (entryAt key data ttl w.now).isWritable = true)

include h

theorem setOn_run_of_no_directory {f : Fault}
    (hdirs : d.makeDirs w.files (s.entryDir key) = (t, .error f)) :
    (s.setOn d key data ttl).run w =
      (.error (.makeDirs, f), { w with now := w.now + Effect.tick, files := t }) := by
  unfold FileStore.setOn
  rw [Effect.run_bind, Effect.clock_run]
  dsimp only
  rw [← entryAt, if_neg (by simp [h]), Effect.run_bind, Effect.get_run]
  dsimp only
  rw [hdirs]
  rfl

theorem setOn_run_of_directory (hdirs : d.makeDirs w.files (s.entryDir key) = (t, .ok ())) :
    (s.setOn d key data ttl).run w =
      ((d.place t (s.entryDir key) (s.entryPath key)
          (String.ofList (entryAt key data ttl w.now).text).toUTF8).2,
        { w with
          now := w.now + Effect.tick
          files := (d.place t (s.entryDir key) (s.entryPath key)
            (String.ofList (entryAt key data ttl w.now).text).toUTF8).1 }) := by
  unfold FileStore.setOn
  rw [Effect.run_bind, Effect.clock_run]
  dsimp only
  rw [← entryAt, if_neg (by simp [h]), Effect.run_bind, Effect.get_run]
  dsimp only
  rw [hdirs]
  rfl

theorem set_run_of_no_directory {front : String} {e : FileFailure}
    (hdirs : (w.files.makeDirs (s.entryDir key)).2 = .error (front, e)) :
    (s.set key data ttl).run w = (.error (e.fault "mkdir" front), { w with
      now := w.now + Effect.tick
      files := (w.files.makeDirs (s.entryDir key)).1 }) := by
  have hmake : ({} : Disk).makeDirs w.files (s.entryDir key) =
      ((w.files.makeDirs (s.entryDir key)).1, .error (e.fault "mkdir" front)) := by
    unfold Disk.makeDirs
    dsimp only
    rw [hdirs]
    rfl
  rw [set_run, setOn_run_of_no_directory h hmake]
  rfl

theorem set_run_of_directory (hdirs : (w.files.makeDirs (s.entryDir key)).2 = .ok ()) :
    (s.set key data ttl).run w =
      ((s.placed w.files key (entryAt key data ttl w.now)).2.mapError fun f =>
          f.fault "write" (s.entryPath key), { w with
        now := w.now + Effect.tick
        files := (s.placed w.files key (entryAt key data ttl w.now)).1 }) := by
  have hmake : ({} : Disk).makeDirs w.files (s.entryDir key) =
      ((w.files.makeDirs (s.entryDir key)).1, .ok ()) := by
    unfold Disk.makeDirs
    dsimp only
    rw [hdirs]
    rfl
  have hne : s.entryDir key ≠ "" := by
    intro heq
    rw [heq] at hdirs
    cases hdirs
  obtain ⟨hfiles, hresult⟩ := place_sound hne (w.files.makeDirs (s.entryDir key)).1
    (s.entryPath key) (String.ofList (entryAt key data ttl w.now).text).toUTF8
  rw [set_run, setOn_run_of_directory h hmake, hfiles, hresult]
  rfl

end Set

/-- Data that were stored have been written with their times. -/
theorem stored_of_set (h : s.IsProper) {data : ByteArray} {ttl : ℤ}
    (hok : ((s.set key data ttl).run w).1 = .ok ()) :
    (entryAt key data ttl w.now).isWritable = true ∧
      s.Stored key (String.ofList (entryAt key data ttl w.now).text).toUTF8 w.files
        ((s.set key data ttl).run w).2.files := by
  by_cases hw : (entryAt key data ttl w.now).isWritable = true
  · refine ⟨hw, ?_⟩
    cases hdirs : (w.files.makeDirs (s.entryDir key)).2 with
    | error e =>
      rw [set_run_of_no_directory hw hdirs] at hok
      cases hok
    | ok u =>
      rw [set_run_of_directory hw hdirs] at hok ⊢
      rcases hplaced : s.placed w.files key (entryAt key data ttl w.now) with ⟨t', e | ⟨⟩⟩
      · rw [hplaced] at hok
        cases hok
      · exact stored_of_place h hplaced
  · rw [set_run_of_unwritable (by simpa using hw)] at hok
    cases hok

/-! ### Forgetting a file -/

/-- The file of a key is gone, and whatever stands elsewhere is as it was. -/
structure Forgotten (s : FileStore) (key : String) (t t' : FileTree) : Prop where
  gone : ∀ c, t'.read (s.entryPath key) ≠ .ok c
  rest : ∀ q, q ≠ s.entryPlace key → t'.get? q = t.get? q
  shrinks : t.Shrinks t'

theorem forgotten_drop (h : s.IsProper) (key : String) (t : FileTree) :
    s.Forgotten key t (t.drop (placeOf (s.entryPath key))) := by
  refine ⟨fun c hc => ?_, fun q hq => ?_, FileTree.shrinks_drop t _⟩
  · have hfile := (FileTree.read_eq_ok_iff.1 hc).2
    rw [FileTree.get?_drop, if_pos rfl, h.placeOf_entryPath, h.standing?_entryPlace] at hfile
    cases hfile
  · rw [FileTree.get?_drop, h.placeOf_entryPath, if_neg hq]

/-- A file that was removed can no longer be found. -/
theorem read_drop (h : s.IsProper) {t : FileTree} {bytes : ByteArray}
    (hread : t.read (s.entryPath key) = .ok bytes) :
    (t.drop (placeOf (s.entryPath key))).read (s.entryPath key) = .error .missing := by
  refine FileTree.read_eq_missing ?_ ?_
  · refine h.leads_congr (FileTree.read_eq_ok_iff.1 hread).1 fun q hq hdir => ?_
    rwa [(forgotten_drop h key t).rest q (hq key)]
  · rw [FileTree.get?_drop, if_pos rfl, h.placeOf_entryPath, h.standing?_entryPlace]

theorem forgotten_of_delete (h : s.IsProper) (hok : ((s.delete key).run w).1 = .ok ()) :
    s.Forgotten key w.files ((s.delete key).run w).2.files := by
  unfold delete at hok ⊢
  rw [Effect.run_bind] at hok ⊢
  cases hremove : w.files.remove (s.entryPath key) with
  | ok t' =>
    obtain ⟨-, rfl⟩ := FileTree.eq_drop_of_remove hremove
    rw [Effect.onFiles_run_ok hremove]
    exact forgotten_drop h key w.files
  | error e =>
    rw [Effect.onFiles_run_error hremove] at hok ⊢
    cases e with
    | missing =>
      refine ⟨fun c hc => ?_, fun q _ => rfl, FileTree.Shrinks.refl _⟩
      have hread : w.files.read (s.entryPath key) = .ok c := hc
      rw [FileTree.remove_of_read hread] at hremove
      cases hremove
    | _ => cases hok

/-! ### Clearing -/

variable {dir name : String} {entries : List (String × FileEntry)} {removed : ℕ}

/-- Clearing that goes well goes on behind whatever is not a key's file. -/
theorem clearFiles_run_other {entry : FileEntry} (hother : entry = .directory ∨ ¬IsEntryName name)
    (hok : ((clearFiles dir removed ((name, entry) :: entries)).run w).1.2 = .ok ()) :
    (clearFiles dir removed ((name, entry) :: entries)).run w =
      (clearFiles dir removed entries).run w := by
  have hskip : (entry = .directory || !isEntryName name) = true := by
    rw [← isEntryName_iff] at hother
    simpa using hother
  rw [clearFiles, Effect.run_bind, Effect.get_run] at hok ⊢
  dsimp only at hok ⊢
  split_ifs at hok ⊢
  · cases hok
  · rfl

/-- Clearing that goes well removes a key's file. -/
theorem clearFiles_run_file {c : ByteArray} (hname : IsEntryName name)
    (hok : ((clearFiles dir removed ((name, .file c) :: entries)).run w).1.2 = .ok ()) :
    (clearFiles dir removed ((name, .file c) :: entries)).run w =
      (clearFiles dir (removed + 1) entries).run
        { w with files := w.files.drop (placeOf (Path.join [dir, name])) } := by
  have hfile : ¬(FileEntry.file c = .directory || !isEntryName name) = true := by
    simp [isEntryName_iff.2 hname]
  rw [clearFiles, Effect.run_bind, Effect.get_run] at hok ⊢
  dsimp only at hok ⊢
  by_cases hcancelled : w.cancelled = true
  · rw [if_pos hcancelled] at hok
    cases hok
  · rw [if_neg hcancelled, if_neg hfile, Effect.run_bind] at hok ⊢
    cases hremove : w.files.remove (Path.join [dir, name]) with
    | error e =>
      rw [Effect.onFiles_run_error hremove] at hok
      cases hok
    | ok t' =>
      rw [Effect.onFiles_run_ok hremove, (FileTree.eq_drop_of_remove hremove).2]

/-- The names of entries among the files of a directory. -/
def entryNames (entries : List (String × FileEntry)) : List String :=
  (entries.filter fun x => x.2 ≠ .directory && isEntryName x.1).map Prod.fst

theorem mem_entryNames_iff :
    name ∈ entryNames entries ↔ IsEntryName name ∧ ∃ c, (name, .file c) ∈ entries := by
  simp only [entryNames, List.mem_map, List.mem_filter, Bool.and_eq_true, decide_eq_true_eq,
    isEntryName_iff]
  constructor
  · rintro ⟨⟨name, e⟩, ⟨hmem, hfile, hname⟩, rfl⟩
    cases e with
    | file c => exact ⟨hname, c, hmem⟩
    | directory => exact absurd rfl hfile
  · rintro ⟨hname, c, hmem⟩
    exact ⟨_, ⟨hmem, FileEntry.noConfusion, hname⟩, rfl⟩

/-- Takes away what stands at some places. -/
def dropAll (t : FileTree) (qs : List Place) : FileTree := qs.foldl FileTree.drop t

theorem get?_dropAll {qs : List Place} (hqs : ∀ q ∈ qs, FileTree.standing? q = none) :
    (dropAll t qs).get? q = if q ∈ qs then none else t.get? q := by
  induction qs generalizing t with
  | nil => rfl
  | cons x qs ih =>
    have ih := @ih (t.drop x) fun y hy => hqs y (List.mem_cons_of_mem _ hy)
    change (dropAll (t.drop x) qs).get? q = _
    rw [ih, FileTree.get?_drop]
    by_cases hx : q = x
    · subst hx
      simp [hqs q List.mem_cons_self]
    · simp [hx]

/-- The tree without the files named as entries that were listed in a directory. -/
def withoutEntries (t : FileTree) (dir : String) (entries : List (String × FileEntry)) : FileTree :=
  dropAll t ((entryNames entries).map (placeOf dir ++ [·]))

/-- Clearing the files of a directory removes those named as entries. -/
theorem clearFiles_run_of_ok (hdir : dir ≠ "")
    (hok : ((clearFiles dir removed entries).run w).1.2 = .ok ()) :
    (clearFiles dir removed entries).run w = ((removed + (entryNames entries).length, .ok ()),
      { w with files := withoutEntries w.files dir entries }) := by
  unfold withoutEntries
  induction entries generalizing removed w with
  | nil => rfl
  | cons x entries ih =>
    obtain ⟨name, e⟩ := x
    by_cases hother : e = .directory ∨ ¬IsEntryName name
    · have hnames : entryNames ((name, e) :: entries) = entryNames entries := by
        refine congrArg (List.map Prod.fst) (List.filter_cons_of_neg ?_)
        rw [← isEntryName_iff] at hother
        simpa [imp_iff_not_or] using hother
      have hrun := clearFiles_run_other hother hok
      rw [hrun] at hok ⊢
      rw [ih hok, hnames]
    · obtain ⟨hfile, hname⟩ := not_or.1 hother
      have hname := not_not.1 hname
      obtain ⟨c, rfl⟩ : ∃ c, e = .file c := by
        cases e with
        | file c => exact ⟨c, rfl⟩
        | directory => exact absurd rfl hfile
      have hnames : entryNames ((name, .file c) :: entries) = name :: entryNames entries :=
        congrArg (List.map Prod.fst) (List.filter_cons_of_pos (by simp [isEntryName_iff.2 hname]))
      have hrun := clearFiles_run_file hname hok
      rw [hrun] at hok ⊢
      rw [ih hok, hnames, FileTree.placeOf_join hdir hname.isName, List.length_cons,
        Nat.add_right_comm, Nat.add_assoc]
      rfl

theorem shrinks_dropAll (t : FileTree) (qs : List Place) : t.Shrinks (dropAll t qs) := by
  induction qs generalizing t with
  | nil => exact FileTree.Shrinks.refl _
  | cons q qs ih => exact (FileTree.shrinks_drop t q).trans (ih (t.drop q))

/-- All files of keys in a listed directory are gone, and nothing was added. -/
theorem shrinks_of_clearFiles (hdir : dir ≠ "")
    (hok : ((clearFiles dir removed entries).run w).1.2 = .ok ()) :
    w.files.Shrinks ((clearFiles dir removed entries).run w).2.files ∧
      ∀ name c, (name, .file c) ∈ entries → IsEntryName name →
        ((clearFiles dir removed entries).run w).2.files.get? (placeOf dir ++ [name]) = none := by
  rw [clearFiles_run_of_ok hdir hok]
  refine ⟨shrinks_dropAll _ _, fun name c hmem hname => ?_⟩
  refine (get?_dropAll fun q hq => ?_).trans
    (if_pos (List.mem_map.2 ⟨name, mem_entryNames_iff.2 ⟨hname, c, hmem⟩, rfl⟩))
  obtain ⟨other, hother, rfl⟩ := List.mem_map.1 hq
  exact (mem_entryNames_iff.1 hother).1.standing? _

/-- Trying to remove a file adds nothing. -/
theorem shrinks_of_remove (w : World) (path : String) :
    w.files.Shrinks ((Effect.onFiles (·.remove path)).run w).2.files := by
  cases hremove : w.files.remove path with
  | error e =>
    rw [Effect.onFiles_run_error hremove]
    exact FileTree.Shrinks.refl _
  | ok t =>
    rw [Effect.onFiles_run_ok hremove, (FileTree.eq_drop_of_remove hremove).2]
    exact FileTree.shrinks_drop _ _

/-- Clearing passes over whatever is no directory of keys' files. -/
theorem clearDirs_cons_other {sub : String} {entry : FileEntry} {dirs : List (String × FileEntry)}
    (hother : ¬(entry = .directory ∧ IsSubName sub)) :
    clearDirs s removed ((sub, entry) :: dirs) = clearDirs s removed dirs := by
  rw [clearDirs, if_pos]
  by_contra hno
  simp only [Bool.or_eq_true, not_or] at hno
  exact hother ⟨by simpa using hno.1, ⟨by simpa using hno.2⟩⟩

/-- A directory of keys' files that does not end the clearing is listed and cleared, and removing it
is tried. -/
theorem clearDirs_run_cons {sub : String} {dirs : List (String × FileEntry)} {removed : ℕ}
    (hsub : IsSubName sub)
    (hok : ((clearDirs s removed ((sub, .directory) :: dirs)).run w).1.2 = .ok ()) :
    ∃ entries, w.files.list (Path.join [s.dir, sub]) = .ok entries ∧
      ((clearFiles (Path.join [s.dir, sub]) removed entries).run w).1.2 = .ok () ∧
      (clearDirs s removed ((sub, .directory) :: dirs)).run w =
        (clearDirs s ((clearFiles (Path.join [s.dir, sub]) removed entries).run w).1.1 dirs).run
          ((Effect.onFiles (·.remove (Path.join [s.dir, sub]))).run
            ((clearFiles (Path.join [s.dir, sub]) removed entries).run w).2).2 := by
  rw [clearDirs, if_neg (by simp [hsub.digits]), Effect.run_bind, Effect.get_run] at hok ⊢
  dsimp only at hok ⊢
  cases hlist : w.files.list (Path.join [s.dir, sub]) with
  | error e =>
    rw [hlist] at hok
    cases hok
  | ok entries =>
    rw [hlist] at hok
    dsimp only at hok ⊢
    rw [Effect.run_bind] at hok ⊢
    rcases hfiles : ((clearFiles (Path.join [s.dir, sub]) removed entries).run w).1 with
      ⟨removed', f | ⟨⟩⟩
    · rw [hfiles] at hok
      cases hok
    · refine ⟨entries, rfl, ?_, ?_⟩
      · rw [hfiles]
      · rw [hfiles]
        rfl

/-- All files of keys in the listed directories are gone, and nothing was added. -/
theorem shrinks_of_clearDirs (h : s.IsProper) {dirs : List (String × FileEntry)} {removed : ℕ}
    (hok : ((clearDirs s removed dirs).run w).1.2 = .ok ()) :
    w.files.Shrinks ((clearDirs s removed dirs).run w).2.files ∧
      ∀ sub, (sub, .directory) ∈ dirs → IsSubName sub → ∀ name, IsEntryName name → ∀ c,
        ((clearDirs s removed dirs).run w).2.files.get? (placeOf s.dir ++ [sub] ++ [name]) ≠
          some (.file c) := by
  induction dirs generalizing removed w with
  | nil => exact ⟨FileTree.Shrinks.refl _, fun sub hmem => nomatch hmem⟩
  | cons x dirs ih =>
    obtain ⟨sub, entry⟩ := x
    by_cases hskip : entry = .directory ∧ IsSubName sub
    · obtain ⟨rfl, hsub⟩ := hskip
      have hne := Path.join_ne_empty h.named hsub.isName.piece.1
      obtain ⟨entries, hlist, hfiles, hrun⟩ := clearDirs_run_cons hsub hok
      rw [hrun] at hok ⊢
      obtain ⟨hcleared, hempty⟩ := shrinks_of_clearFiles hne hfiles
      obtain ⟨hrest, hgone⟩ := ih hok
      have hafter := (shrinks_of_remove _ _).trans hrest
      refine ⟨hcleared.trans hafter, fun other hmem hother name hname c hc => ?_⟩
      rcases List.mem_cons.1 hmem with heq | hmem
      · -- a file that stands in the end stood when the directory was listed
        obtain rfl : other = sub := by cases heq; rfl
        rw [← FileTree.placeOf_join h.named hsub.isName] at hc
        have hleft := hafter _ _ hc
        have hlisted := FileTree.mem_of_list hlist (hname.standing? _) (hcleared _ _ hleft)
        rw [hempty name c hlisted hname] at hleft
        cases hleft
      · exact hgone other hmem hother name hname c hc
    · rw [clearDirs_cons_other hskip] at hok ⊢
      obtain ⟨hshrinks, hgone⟩ := ih hok
      refine ⟨hshrinks, fun other hmem hsub => ?_⟩
      rcases List.mem_cons.1 hmem with heq | hmem
      · cases heq
        exact absurd ⟨rfl, hsub⟩ hskip
      · exact hgone other hmem hsub

/-- No file of a key that could be read is left, and nothing was added. -/
structure Cleared (s : FileStore) (t t' : FileTree) : Prop where
  gone : ∀ key c, t.read (s.entryPath key) = .ok c →
    ∀ c', t'.get? (s.entryPlace key) ≠ some (.file c')
  shrinks : t.Shrinks t'

/-- Clearing a directory that is found, or is missing under its clean path as well, leaves no file
of a key. -/
theorem cleared_of_clear (h : s.IsProper)
    (hfound : w.files.list s.dir = .error .missing →
      w.files.list (Path.clean s.dir) = .error .missing)
    (hok : ((s.clear).run w).1.2 = .ok ()) : s.Cleared w.files ((s.clear).run w).2.files := by
  unfold clear at hok ⊢
  rw [Effect.run_bind, Effect.get_run] at hok ⊢
  dsimp only at hok ⊢
  cases hdirs : w.files.list s.dir with
  | error e =>
    rw [hdirs] at hok
    cases e with
    | missing =>
      -- no file can be read below a directory that is missing
      refine ⟨fun key c hread => ?_, FileTree.Shrinks.refl _⟩
      have hleads := (FileTree.read_eq_ok_iff.1 hread).1
      rw [h.entryPath_eq] at hleads
      have hdir := hleads.stat_clean_above h.named (h.isSubName key).isName
        (h.isEntryName key).isName
      exact absurd (hfound hdirs) (FileTree.list_ne_missing hdir)
    | _ => cases hok
  | ok dirs =>
    rw [hdirs] at hok
    dsimp only at hok ⊢
    obtain ⟨hshrinks, hgone⟩ := shrinks_of_clearDirs h hok
    refine ⟨fun key c hread => ?_, hshrinks⟩
    have hleads := (FileTree.read_eq_ok_iff.1 hread).1
    rw [h.entryPath_eq] at hleads
    obtain ⟨hne, hplace⟩ := h.entryDir_eq key
    have hdir := hleads.directory hne (h.isEntryName key).isName
    rw [hplace] at hdir
    have hsub := FileTree.mem_of_list hdirs ((h.isSubName key).standing? _) hdir
    exact hgone _ hsub (h.isSubName key) _ (h.isEntryName key)

end FileStore
end Cache
end ApiDiagrams
