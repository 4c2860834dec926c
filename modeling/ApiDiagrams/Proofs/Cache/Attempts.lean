import ApiDiagrams.Proofs.Cache.Clearing

/-!
# Attempts to store data

Storing data takes several steps, and the operating system can fail each of them for reasons of its
own. An attempt either keeps the data or leaves all files as they were, but for one case: when the
finished file cannot be moved to its place, it stays beside it.

* `AgreeBut`: what an attempt leaves alone;
* `Placed`, `placed_of_place`: what becomes of a file that is written and moved, step by step;
* `Attempt`: what becomes of an attempt;
* `attempt_of_setOn`: every attempt, on every disk and over all files, is one of these.
-/

namespace ApiDiagrams

namespace FileTree

variable {t t' : FileTree} {path : String} {content : ByteArray}

/-- Whatever is made on the way to a directory lies above it. -/
theorem placeOf_prefix_of_mem_fronts {front : String} (h : front ∈ Path.fronts (Path.clean path)) :
    placeOf front <+: placeOf path := by
  obtain ⟨-, -, habs, hcomponents⟩ := Path.front_of_mem_fronts h
  rw [Path.isAbsolute_clean] at habs
  have hsuffix := foldl_push_suffix hcomponents
  rw [← habs] at hsuffix
  rw [placeOf_eq_lay, habs]
  rw [habs] at hsuffix
  have htrail : Path.trail front = (Path.components front).foldl
      (Path.push (Path.isAbsolute path)) [] := by rw [Path.trail, habs]
  rw [htrail]
  exact lay_prefix_placeOf hsuffix

theorem get?_eq_none_of_stat {e : FileFailure} (hl : t.Leads path) (h : t.stat path = .error e) :
    t.get? (placeOf path) = none := by
  rw [Option.eq_none_iff_forall_ne_some]
  intro entry hentry
  rw [stat_eq_ok_iff.2 ⟨hl, hentry⟩] at h
  cases h

/-- A file that was written can be read. -/
theorem read_of_write (h : t.write path content = .ok t') (hs : standing? (placeOf path) = none) :
    t'.read path = .ok content := by
  have hdirectory := directory_write_iff h
  refine read_eq_ok_iff.2 ⟨?_, by rw [get?_write h hs, if_pos rfl]⟩
  exact (write_eq_ok_iff.1 h).1.1.mono fun q => (hdirectory q).2

/-- A new file that is removed leaves nothing behind. -/
theorem get?_drop_of_write (h : t.write path content = .ok t')
    (hs : standing? (placeOf path) = none) (hfree : t.get? (placeOf path) = none) (q : Place) :
    (t'.drop (placeOf path)).get? q = t.get? q := by
  rw [get?_drop, get?_write h hs]
  split_ifs with hq
  · rw [hq, hs, hfree]
  · rfl

end FileTree

namespace Cache
namespace FileStore

open FileTree (placeOf)

variable {s : FileStore} {d : Disk} {key other : String} {content : ByteArray} {t t' : FileTree}

/-! ### What an attempt leaves alone -/

/-- The trees agree but for some places, and but for directories that were made on the way to the
directory of a key's file. -/
def AgreeBut (s : FileStore) (key : String) (changed : Place → Prop) (t t' : FileTree) : Prop :=
  ∀ q, ¬ changed q → t'.get? q = t.get? q ∨
    (t.get? q = none ∧ t'.get? q = some .directory ∧ q <+: placeOf (s.entryDir key))

namespace AgreeBut

variable {changed : Place → Prop} {t'' : FileTree}

/-- The directories are made first. -/
theorem trans (h : s.AgreeBut key (fun _ => False) t t')
    (h' : ∀ q, ¬ changed q → t''.get? q = t'.get? q) : s.AgreeBut key changed t t'' := by
  intro q hq
  rw [h' q hq]
  exact h q id

/-- No file of a key is as near to the root as the directories. -/
theorem get?_entryPlace (h : s.AgreeBut key changed t t') (hs : s.IsProper)
    (hother : ¬ changed (s.entryPlace other)) :
    t'.get? (s.entryPlace other) = t.get? (s.entryPlace other) := by
  refine (h _ hother).resolve_right fun hmade => ?_
  have hle := hmade.2.2.length_le
  rw [(hs.entryDir_eq key).2, entryPlace] at hle
  simp at hle

end AgreeBut

theorem agreeBut_makeDirs (h : s.IsProper) (d : Disk) (t : FileTree) (key : String) :
    s.AgreeBut key (fun _ => False) t (d.makeDirs t (s.entryDir key)).1 := by
  have hclean : Path.clean (s.entryDir key) = s.entryDir key := by
    have hname := (h.isSubName key).isName.piece.1
    change Path.clean (Path.join [s.dir, s.subName key]) = Path.join [s.dir, s.subName key]
    rw [Path.join_pair h.named hname, Path.clean_clean]
  have hmade : FileTree.Made (Path.fronts (s.entryDir key)) t
      (d.makeDirs t (s.entryDir key)).1 := by
    unfold Disk.makeDirs
    split
    · intro q
      refine (FileTree.made_makeEach t _ q).imp_right ?_
      rintro ⟨hnone, hdir, front, hfront, hq⟩
      exact ⟨hnone, hdir, front, List.mem_of_mem_take hfront, hq⟩
    · exact FileTree.made_makeDirs t _
  intro q _
  refine (hmade q).imp_right ?_
  rintro ⟨hnone, hdir, front, hfront, rfl⟩
  rw [← hclean] at hfront
  exact ⟨hnone, hdir, FileTree.placeOf_prefix_of_mem_fronts hfront⟩

/-! ### A file that is written and moved -/

/-- The place of a file that is about to be moved. -/
def temporaryPlace (s : FileStore) (key : String) (n : ℕ) : Place :=
  placeOf (s.entryDir key) ++ [temporaryName n]

theorem IsProper.placeOf_temporary (h : s.IsProper) (key : String) (n : ℕ) :
    placeOf (Path.join [s.entryDir key, temporaryName n]) = s.temporaryPlace key n :=
  FileTree.placeOf_join (h.entryDir_eq key).1 (isName_temporaryName n)

theorem standing?_temporaryPlace (s : FileStore) (key : String) (n : ℕ) :
    FileTree.standing? (s.temporaryPlace key n) = none := standing?_temporaryName n _

/-- What becomes of a file that is written beside the file of a key and moved to its place: it is
taken away again, it stays where it was written, or it is in its place. -/
inductive Placed (s : FileStore) (key : String) (content : ByteArray) (n : ℕ) (t : FileTree) :
    FileTree × Except (Disk.Step × Fault) Unit → Prop
  | undone {t' : FileTree} {step : Disk.Step} {f : Fault}
      (early : step = .create ∨ step = .write ∨ step = .close) (same : ∀ q, t'.get? q = t.get? q) :
      Placed s key content n t (t', .error (step, f))
  | left {t' : FileTree} {f : Fault} (free : t.get? (s.temporaryPlace key n) = none)
      (there : t'.get? (s.temporaryPlace key n) = some (.file content))
      (rest : ∀ q, q ≠ s.temporaryPlace key n → t'.get? q = t.get? q) :
      Placed s key content n t (t', .error (.move, f))
  | moved {t' : FileTree} (read : t'.read (s.entryPath key) = .ok content)
      (rest : ∀ q, q ≠ s.entryPlace key → t'.get? q = t.get? q) :
      Placed s key content n t (t', .ok ())

/-- A file is only made where there is none. -/
theorem create_eq_ok {temporary path : String} (h : d.create t temporary path = .ok t') :
    t.get? (placeOf temporary) = none ∧ t.write temporary .empty = .ok t' := by
  unfold Disk.create at h
  split at h
  · cases h
  · split at h
    · cases h
    · rename_i e hstat
      cases hwrite : t.write temporary .empty with
      | error e =>
        rw [hwrite] at h
        cases h
      | ok t₁ =>
        rw [hwrite] at h
        cases h
        exact ⟨FileTree.get?_eq_none_of_stat (FileTree.write_eq_ok_iff.1 hwrite).1.1 hstat, rfl⟩

/-- A new file that is filled holds its content, and some content when that fails. -/
theorem write_of_create {t₁ : FileTree} {temporary path : String} {r : Except Fault Unit}
    (hcreate : t.write temporary .empty = .ok t₁)
    (h : d.write t₁ temporary path content = (t', r)) :
    ∃ c, t.write temporary c = .ok t' ∧ (r = .ok () → c = content) := by
  have hdirect : ∀ c, t.write temporary c = .ok (t.put (placeOf temporary) (.file c)) := fun c =>
    FileTree.write_eq_ok_iff.2 ⟨(FileTree.write_eq_ok_iff.1 hcreate).1, rfl⟩
  unfold Disk.write at h
  split at h
  · rw [FileTree.write_write hcreate] at h
    cases h
    exact ⟨_, hdirect _, nofun⟩
  · rw [FileTree.write_write hcreate] at h
    cases h
    exact ⟨_, hdirect _, fun _ => rfl⟩

/-- A new file is taken away again without a trace. -/
theorem get?_discard (h : s.IsProper) {n : ℕ} {c : ByteArray}
    (hfree : t.get? (s.temporaryPlace key n) = none)
    (hwrite : t.write (Path.join [s.entryDir key, temporaryName n]) c = .ok t') (q : Place) :
    (Disk.discard t' (Path.join [s.entryDir key, temporaryName n])).get? q = t.get? q := by
  have hstanding := standing?_temporaryPlace s key n
  rw [← h.placeOf_temporary] at hfree hstanding
  unfold Disk.discard
  rw [FileTree.remove_of_read (FileTree.read_of_write hwrite hstanding)]
  exact FileTree.get?_drop_of_write hwrite hstanding hfree q

/-- A file that is moved is the file of its key. -/
theorem placed_of_move (h : s.IsProper) {n : ℕ} {t₁ : FileTree}
    (hfree : t.get? (s.temporaryPlace key n) = none)
    (hwrite : t.write (Path.join [s.entryDir key, temporaryName n]) content = .ok t₁)
    (hmove : d.move t₁ (Path.join [s.entryDir key, temporaryName n]) (s.entryPath key) = .ok t') :
    Placed s key content n t (t', .ok ()) := by
  have hstanding := standing?_temporaryPlace s key n
  rw [← h.placeOf_temporary] at hfree hstanding
  have hrename : t₁.rename (Path.join [s.entryDir key, temporaryName n]) (s.entryPath key) =
      .ok t' := by
    unfold Disk.move at hmove
    split at hmove
    · cases hmove
    · cases hrename : t₁.rename (Path.join [s.entryDir key, temporaryName n]) (s.entryPath key) with
      | error e =>
        rw [hrename] at hmove
        cases hmove
      | ok t₂ =>
        rw [hrename] at hmove
        exact congrArg Except.ok (Except.ok.inj hmove)
  obtain ⟨content', hread, ⟨hleads, htarget⟩, rfl⟩ := FileTree.rename_eq_ok_iff.1 hrename
  rw [FileTree.read_of_write hwrite hstanding] at hread
  obtain rfl := Except.ok.inj hread
  rw [h.placeOf_entryPath] at htarget
  have hget : ∀ q, ((t₁.drop (placeOf (Path.join [s.entryDir key, temporaryName n]))).put
      (placeOf (s.entryPath key)) (.file content)).get? q =
        if q = s.entryPlace key then some (.file content) else t.get? q := by
    intro q
    rw [FileTree.get?_put, h.placeOf_entryPath, FileTree.get?_drop_of_write hwrite hstanding hfree]
    simp only [h.standing?_entryPlace key, and_true]
  refine .moved (FileTree.read_eq_ok_iff.2 ⟨hleads.mono fun q hq => ?_, ?_⟩) fun q hq => ?_
  · have hne : q ≠ s.entryPlace key := fun heq => htarget (heq ▸ hq)
    rw [hget, if_neg hne]
    exact (FileTree.directory_write_iff hwrite q).1 hq
  · rw [hget, if_pos (h.placeOf_entryPath key)]
  · rw [hget, if_neg hq]

theorem placed_of_place (h : s.IsProper) (d : Disk) (t : FileTree) (key : String)
    (content : ByteArray) : Placed s key content (d.number t (s.entryDir key)) t
      (d.place t (s.entryDir key) (s.entryPath key) content) := by
  unfold Disk.place
  dsimp only
  generalize d.number t (s.entryDir key) = n
  cases hcreate : d.create t (Path.join [s.entryDir key, temporaryName n]) (s.entryPath key) with
  | error f => exact .undone (.inl rfl) fun q => rfl
  | ok t₁ =>
    obtain ⟨hfree, hcreated⟩ := create_eq_ok hcreate
    rw [h.placeOf_temporary] at hfree
    dsimp only
    rcases hfill : d.write t₁ (Path.join [s.entryDir key, temporaryName n]) (s.entryPath key)
      content with ⟨t₂, f | ⟨⟩⟩
    · obtain ⟨c, hwrite, -⟩ := write_of_create hcreated hfill
      exact .undone (.inr (.inl rfl)) (get?_discard h hfree hwrite)
    · obtain ⟨c, hwrite, hc⟩ := write_of_create hcreated hfill
      obtain rfl := hc rfl
      dsimp only
      cases d.fails .close with
      | some f => exact .undone (.inr (.inr rfl)) (get?_discard h hfree hwrite)
      | none =>
        dsimp only
        cases hmove : d.move t₂ (Path.join [s.entryDir key, temporaryName n]) (s.entryPath key) with
        | ok t₃ => exact placed_of_move h hfree hwrite hmove
        | error f =>
          have hstanding := standing?_temporaryPlace s key n
          rw [← h.placeOf_temporary] at hstanding
          have hget := FileTree.get?_write hwrite hstanding
          rw [h.placeOf_temporary] at hget
          exact .left hfree (by rw [hget, if_pos rfl]) fun q hq => by rw [hget, if_neg hq]

/-! ### An attempt as a whole -/

/-- What becomes of an attempt to store an entry over some files. -/
inductive Attempt (s : FileStore) (key : String) (e : Entry) (t : FileTree) :
    Except (Disk.Step × Fault) Unit → FileTree → Prop
  /-- The key's file holds the entry. -/
  | stored {t' : FileTree} {content : ByteArray} (read : t'.read (s.entryPath key) = .ok content)
      (parse : Entry.parse? content = some e)
      (rest : s.AgreeBut key (· = s.entryPlace key) t t') : Attempt s key e t (.ok ()) t'
  /-- Nothing but directories is left. -/
  | undone {t' : FileTree} {step : Disk.Step} {f : Fault} (early : step ≠ .move)
      (rest : s.AgreeBut key (fun _ => False) t t') : Attempt s key e t (.error (step, f)) t'
  /-- A new file holds the entry beside the place of the key's file. -/
  | left {t' : FileTree} {f : Fault} {content : ByteArray} (n : ℕ)
      (free : t.get? (s.temporaryPlace key n) = none)
      (there : t'.get? (s.temporaryPlace key n) = some (.file content))
      (parse : Entry.parse? content = some e)
      (rest : s.AgreeBut key (· = s.temporaryPlace key n) t t') :
      Attempt s key e t (.error (.move, f)) t'

theorem attempt_of_placed {made : FileTree} {e : Entry}
    (hdirs : s.AgreeBut key (fun _ => False) t made) (parse : Entry.parse? content = some e) {n : ℕ}
    {out : FileTree × Except (Disk.Step × Fault) Unit} (hplaced : Placed s key content n made out) :
    Attempt s key e t out.2 out.1 := by
  cases hplaced with
  | undone early same =>
    refine .undone ?_ (hdirs.trans fun q _ => same q)
    rcases early with rfl | rfl | rfl <;> nofun
  | left free there rest =>
    refine .left n ?_ there parse (hdirs.trans fun q hq => rest q hq)
    -- nothing that stood before has gone
    rcases hdirs (s.temporaryPlace key n) id with heq | ⟨hnone, -⟩
    · rw [← heq, free]
    · exact hnone
  | moved read rest => exact .stored read parse (hdirs.trans fun q hq => rest q hq)

/-- The files of other keys stay as they are, and so does the key's own when the attempt fails. -/
theorem Attempt.get?_entryPlace {e : Entry} {r : Except (Disk.Step × Fault) Unit}
    (h : Attempt s key e t r t') (hs : s.IsProper) (hother : r = .ok () →
      s.entryPlace other ≠ s.entryPlace key) :
    t'.get? (s.entryPlace other) = t.get? (s.entryPlace other) := by
  cases h with
  | stored read parse rest => exact rest.get?_entryPlace hs (hother rfl)
  | undone early rest => exact rest.get?_entryPlace hs id
  | left n free there parse rest =>
    exact rest.get?_entryPlace hs fun heq => hs.temporary_ne n key other heq.symm

/-- **Storing data is all or nothing, but for the last step.** On every disk and over all files, data
that are stored are in the key's file, and an attempt that fails leaves all files as they were; only
when the finished file cannot be moved to its place, it is left beside it. Either way only directories
on the way may have been made, the clock has moved on, and the files of other keys are as they
were. -/
theorem attempt_of_setOn (h : s.IsProper) (d : Disk) (key : String) (data : ByteArray) (ttl : ℤ)
    (w : World) : ∃ r t', (s.setOn d key data ttl).run w =
        (r, { w with now := w.now + Effect.tick, files := t' }) ∧
      Attempt s key (entryAt key data ttl w.now) w.files r t' ∧
      (∀ other, s.digest other.toUTF8 ≠ s.digest key.toUTF8 →
        t'.get? (s.entryPlace other) = w.files.get? (s.entryPlace other)) ∧
      (r ≠ .ok () → t'.get? (s.entryPlace key) = w.files.get? (s.entryPlace key)) := by
  suffices hattempt : ∃ r t', (s.setOn d key data ttl).run w =
      (r, { w with now := w.now + Effect.tick, files := t' }) ∧
        Attempt s key (entryAt key data ttl w.now) w.files r t' by
    obtain ⟨r, t', hrun, hattempt⟩ := hattempt
    refine ⟨r, t', hrun, hattempt, fun other hother => ?_, fun herror => ?_⟩
    · exact hattempt.get?_entryPlace h fun _ heq => hother ((entryPlace_inj s).1 heq)
    · exact hattempt.get?_entryPlace h fun hok => absurd hok herror
  by_cases hw : (entryAt key data ttl w.now).isWritable = true
  · have hdirs := agreeBut_makeDirs h d w.files key
    rcases hmake : d.makeDirs w.files (s.entryDir key) with ⟨made, f | ⟨⟩⟩
    · rw [hmake] at hdirs
      exact ⟨_, _, setOn_run_of_no_directory hw hmake, .undone nofun hdirs⟩
    · rw [hmake] at hdirs
      exact ⟨_, _, setOn_run_of_directory hw hmake,
        attempt_of_placed hdirs (Entry.parse?_text hw) (placed_of_place h d made key _)⟩
  · have hno : (entryAt key data ttl w.now).isWritable = false := by simpa using hw
    exact ⟨_, w.files, setOn_run_of_unwritable hno, .undone nofun fun q _ => .inl rfl⟩

/-- The file of the key `k` cannot be moved over a directory. -/
theorem attempt_of_setOn_barred : hashed.IsProper ∧
    ∃ f t', (hashed.setOn {} "k" .empty 0).run barred =
        (.error (.move, f), { barred with now := barred.now + Effect.tick, files := t' }) ∧
      Attempt hashed "k" (entryAt "k" .empty 0 barred.now) barred.files (.error (.move, f)) t' := by
  have hmove : ((hashed.setOn {} "k" .empty 0).run barred).1 =
      .error (.move, FileFailure.isDirectory.fault "write" (hashed.entryPath "k")) := by
    decide +kernel
  obtain ⟨r, t', hrun, hattempt, -⟩ := attempt_of_setOn isProper_hashed {} "k" .empty 0 barred
  rw [hrun] at hmove
  obtain rfl := hmove
  exact ⟨isProper_hashed, _, t', hrun, hattempt⟩

/-- A file may be left behind by an attempt that fails. -/
theorem set_leaves_file : ¬ ∀ (s : FileStore) (key : String) (data : ByteArray) (ttl : ℤ) (w : World),
    s.IsProper → ((s.set key data ttl).run w).1 ≠ .ok () → ∀ q c,
      ((s.set key data ttl).run w).2.files.get? q = some (.file c) →
        w.files.get? q = some (.file c) := by
  intro hnothing
  have hleft : ((hashed.set "k" .empty 0).run barred).1 ≠ .ok () ∧
      ((hashed.set "k" .empty 0).run barred).2.files.get? ["c", "82", ".tmp-0"] =
        some (.file (String.ofList (entryAt "k" .empty 0 barred.now).text).toUTF8) := by
    decide +kernel
  have hfree : barred.files.get? ["c", "82", ".tmp-0"] = none := by decide +kernel
  rw [hnothing hashed "k" .empty 0 barred isProper_hashed hleft.1 _ _ hleft.2] at hfree
  cases hfree

end FileStore
end Cache
end ApiDiagrams
