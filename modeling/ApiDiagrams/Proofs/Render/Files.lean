import ApiDiagrams.Proofs.Cache.Digest
import ApiDiagrams.Proofs.Cache.History
import ApiDiagrams.Proofs.Render.Cached

/-!
# The file store finds only what it was given

The file of an entry comes into being only when data are stored. An attempt that fails leaves at
most directories and a file that was to be moved, and what others take away is not found any more.
So calls after one another over a file store are a session, whatever fails on the way.

* `FileStore.file_of_set`: the files of entries after an attempt to store data;
* `FileSession`: calls over the files that the calls before left;
* `FileSession.backed`: each file holds what a call gave to the store;
* `FileSession.session`: calls over a file store are a session.
-/

namespace ApiDiagrams
namespace Cache
namespace FileStore

open FileTree (placeOf)

variable {s : FileStore} {key other : String} {content bytes data : ByteArray} {w : World}

/-- A file that could not be moved to its place is no file of an entry. -/
theorem file_of_place_error (h : s.IsProper) {t t' : FileTree} {e : FileFailure}
    (hplace : FileStore.place t (s.entryDir key) (s.entryPath key) content = (t', .error e))
    (hfile : t'.get? (s.entryPlace other) = some (.file bytes)) :
    t.get? (s.entryPlace other) = some (.file bytes) := by
  obtain ⟨n, hn⟩ : ∃ n, freshName t (s.entryDir key) =
    Path.join [s.entryDir key, temporaryName n] := ⟨_, rfl⟩
  unfold FileStore.place at hplace
  rw [hn] at hplace
  dsimp only at hplace
  split at hplace
  next =>
    cases hplace
    exact hfile
  next t₁ hwrite =>
    split at hplace
    next =>
      cases hplace
      obtain ⟨-, rfl⟩ := FileTree.write_eq_ok_iff.1 hwrite
      rw [FileTree.get?_put,
        FileTree.placeOf_join (h.entryDir_eq key).1 (isName_temporaryName n),
        if_neg fun hq => h.temporary_ne n key other hq.1.symm] at hfile
      exact hfile
    next => cases hplace

/-- A failed attempt to store data leaves no new file of an entry behind. -/
theorem file_of_set_error (h : s.IsProper) {ttl : ℤ} {f : Fault}
    (herror : ((s.set key data ttl).run w).1 = .error f)
    (hfile : ((s.set key data ttl).run w).2.files.get? (s.entryPlace other) =
      some (.file bytes)) :
    w.files.get? (s.entryPlace other) = some (.file bytes) := by
  -- only directories are made before the data are written
  have hmade : ∀ {c}, (w.files.makeDirs (s.entryDir key)).1.get? (s.entryPlace other) =
      some (.file c) → w.files.get? (s.entryPlace other) = some (.file c) := by
    intro c hc
    rcases FileTree.made_makeDirs w.files (s.entryDir key) (s.entryPlace other) with
      heq | ⟨-, hdir, -⟩
    · rw [← heq, hc]
    · rw [hdir] at hc
      cases hc
  by_cases hw : (entryAt key data ttl w.now).isWritable = true
  · cases hdirs : (w.files.makeDirs (s.entryDir key)).2 with
    | error e =>
      rw [set_run_of_no_directory hw hdirs] at hfile
      exact hmade hfile
    | ok u =>
      rw [set_run_of_directory hw hdirs] at herror hfile
      rcases hplaced : s.placed w.files key (entryAt key data ttl w.now) with ⟨t', e | ⟨⟩⟩
      · rw [hplaced] at hfile
        exact hmade (file_of_place_error h hplaced hfile)
      · rw [hplaced] at herror
        cases herror
  · rw [set_run_of_unwritable (by simpa using hw)] at hfile
    exact hfile

/-- After an attempt to store data the file of an entry is an old one, or that of the data. -/
theorem file_of_set (h : s.IsProper) {ttl : ℤ}
    (hfile : ((s.set key data ttl).run w).2.files.get? (s.entryPlace other) =
      some (.file bytes)) :
    w.files.get? (s.entryPlace other) = some (.file bytes) ∨
      (entryAt key data ttl w.now).isWritable = true ∧
        bytes = (String.ofList (entryAt key data ttl w.now).text).toUTF8 := by
  cases hok : ((s.set key data ttl).run w).1 with
  | error f => exact Or.inl (file_of_set_error h hok hfile)
  | ok u =>
    obtain ⟨hw, hstored⟩ := stored_of_set h hok
    by_cases hsame : s.entryPlace other = s.entryPlace key
    · rw [hsame, ((read_entry_iff h).1 hstored.read).2] at hfile
      exact Or.inr ⟨hw, (FileEntry.file.inj (Option.some.inj hfile)).symm⟩
    · exact Or.inl ((hstored.files other hsame bytes).1 hfile)

/-- After reading, the file of an entry is an old one. -/
theorem file_of_get (h : s.IsProper)
    (hfile : ((s.get key).run w).2.files.get? (s.entryPlace other) = some (.file bytes)) :
    w.files.get? (s.entryPlace other) = some (.file bytes) := by
  have hstep := step_of_get h w key
  generalize ((s.get key).run w).2.files = after at hstep hfile
  generalize w.files = before at hstep ⊢
  cases hstep with
  | look => exact hfile
  | sweep _ _ hforgotten => exact hforgotten.shrinks _ _ hfile

/-- The file of an entry gives its data back, under its key only. -/
theorem eq_of_fresh? {e : Entry} (hw : e.isWritable = true) {now : ℤ}
    (h : fresh? key now (String.ofList e.text).toUTF8 = some data) : e.key = key ∧ e.data = data := by
  unfold fresh? at h
  rw [Entry.parse?_text hw] at h
  dsimp only at h
  split_ifs at h with hcond
  · exact ⟨by simpa using (Bool.and_eq_true_iff.1 hcond).1, Option.some.inj h⟩

end FileStore
end Cache

namespace Render

open Cache (Entry FileStore)
open Cache.FileStore (entryAt)

/-- Calls over a file store that holds no entry at first. Each call begins with entries that the
call before left; others may have been taken away. -/
inductive FileSession (r : Renderer) (c : Caching) (s : FileStore) : List Call → FileTree → Prop
  | start {t : FileTree} (empty : ∀ key bytes, t.get? (s.entryPlace key) ≠ some (.file bytes)) :
      FileSession r c s [] t
  | call {calls : List Call} {t : FileTree} {q : Call} (before : FileSession r c s calls t)
      (lost : ∀ key bytes, q.world.files.get? (s.entryPlace key) = some (.file bytes) →
        t.get? (s.entryPlace key) = some (.file bytes)) :
      FileSession r c s (calls ++ [q]) (q.result r c).2.files

variable {r : Renderer} {c : Caching} {s : FileStore} {q : Call} {calls : List Call}
  {t : FileTree} {key : String} {bytes data : ByteArray}

/-- The bytes are the file of what a call gave to the store. -/
def Gave (r : Renderer) (c : Caching) (q : Call) (bytes : ByteArray) : Prop :=
  ∃ data now, q.kept? r c = some data ∧ (entryAt (q.key r c) data c.ttl now).isWritable = true ∧
    bytes = (String.ofList (entryAt (q.key r c) data c.ttl now).text).toUTF8

section Steps

variable (h : s.IsProper) (hstore : c.store = s.store)
  (hspares : ∀ key, r.Spares (s.entryPlace key))

include h hstore hspares

theorem file_of_reading
    (hfile : (q.reading r c).2.files.get? (s.entryPlace key) = some (.file bytes)) :
    q.world.files.get? (s.entryPlace key) = some (.file bytes) := by
  rw [Call.reading, hstore] at hfile
  have hbefore := FileStore.file_of_get h hfile
  rwa [← (hspares key).version q.world]

theorem file_of_rendering
    (hfile : (q.rendering r c).2.files.get? (s.entryPlace key) = some (.file bytes)) :
    q.world.files.get? (s.entryPlace key) = some (.file bytes) := by
  refine file_of_reading h hstore hspares (r := r) (c := c) ?_
  have hmissed : (q.missed r c).files = (q.reading r c).2.files := by
    unfold Call.missed
    rw [(told_report _ _).files]
    cases (q.reading r c).1 with
    | ok found => rfl
    | error f => exact (told_log _ _).files
  rw [Call.rendering, (hspares key).render, hmissed] at hfile
  exact hfile

/-- After a call, the file of an entry is an old one, or that of what the call gave to the store. -/
theorem file_of_result
    (hfile : (q.result r c).2.files.get? (s.entryPlace key) = some (.file bytes)) :
    q.world.files.get? (s.entryPlace key) = some (.file bytes) ∨ Gave r c q bytes := by
  cases hhit : q.hit? r c with
  | some data =>
    rw [Call.result_of_hit hhit, (told_report _ _).files] at hfile
    exact Or.inl (file_of_reading h hstore hspares hfile)
  | none =>
    cases hrendering : (q.rendering r c).1 with
    | error f =>
      rw [Call.result_of_error hhit hrendering] at hfile
      exact Or.inl (file_of_rendering h hstore hspares hfile)
    | ok output =>
      have hset : ((c.store.set (q.key r c) output c.ttl).run (q.rendering r c).2).2.files.get?
          (s.entryPlace key) = some (.file bytes) := by
        rw [Call.result_of_ok hhit hrendering] at hfile
        generalize (c.store.set (q.key r c) output c.ttl).run (q.rendering r c).2 = after at hfile ⊢
        obtain ⟨kept, w⟩ := after
        cases kept with
        | ok _ => rwa [(told_report _ _).files] at hfile
        | error f => rwa [(told_log _ _).files] at hfile
      rw [hstore] at hset
      rcases FileStore.file_of_set h hset with hold | ⟨hw, hbytes⟩
      · exact Or.inl (file_of_rendering h hstore hspares hold)
      · refine Or.inr ⟨output, _, ?_, hw, hbytes⟩
        rw [Call.kept?_of_no_hit hhit, hrendering]
        rfl

/-- Each file of an entry holds what a call gave to the store. -/
theorem FileSession.backed (hs : FileSession r c s calls t)
    (hfile : t.get? (s.entryPlace key) = some (.file bytes)) : ∃ p ∈ calls, Gave r c p bytes := by
  induction hs generalizing key bytes with
  | start hempty => exact absurd hfile (hempty key bytes)
  | @call calls t q before lost ih =>
    rcases file_of_result h hstore hspares hfile with hold | hgave
    · obtain ⟨p, hp, hgave⟩ := ih (lost key bytes hold)
      exact ⟨p, List.mem_append_left _ hp, hgave⟩
    · exact ⟨q, by simp, hgave⟩

/-- Calls over a file store are a session, whatever fails. -/
theorem FileSession.session (hs : FileSession r c s calls t) : Session r c calls := by
  induction hs with
  | start => exact .start
  | @call calls t q before lost ih =>
    refine .call ih fun data hdata => ?_
    have hget : ((s.get (q.key r c)).run (q.keying r c).2).1 = .ok (some data) := by
      have hreading : q.reading r c = (s.get (q.key r c)).run (q.keying r c).2 := by
        rw [Call.reading, hstore]
        rfl
      rw [← hreading]
      exact Call.reading_of_hit hdata
    obtain ⟨bytes, hread, hfresh⟩ := FileStore.get_eq_some_iff.1 hget
    have hfile := ((FileStore.read_entry_iff h).1 hread).2
    rw [Call.keying_snd, (hspares _).version] at hfile
    obtain ⟨p, hp, data', now, hkept, hw, hbytes⟩ :=
      before.backed h hstore hspares (lost _ _ hfile)
    rw [hbytes] at hfresh
    obtain ⟨hkey, hsame⟩ := FileStore.eq_of_fresh? hw hfresh
    exact ⟨p, hp, hkey, hkept.trans (congrArg some hsame)⟩

end Steps

/-! ### Three calls -/

/-- The same call in another world. -/
def Call.inWorld (q : Call) (w : World) : Call := { q with world := w }

theorem Call.world_inWorld (q : Call) (w : World) : (q.inWorld w).world = w := rfl

theorem Call.hashed_inWorld (q : Call) (w : World) (v : Version) :
    hashed r c v [q.inWorld w] = hashed r c v [q] := rfl

/-- The answers of a renderer that knows one format. -/
def svgScript : Script where
  version := ⟨[2, 43]⟩
  outputs := [("svg", "<svg/>".toUTF8)]

/-- Outputs are kept in a directory, under the keys of one scope. -/
def inFiles : Caching where
  store := Cache.FileStore.store ⟨"c", Sha256.hex⟩
  digest := Sha256.hex
  keyer := .withinScopes Sha256.hex ["docs:"]
  ttl := 0

/-- A call that finds an empty directory. -/
def firstCall : Call := ⟨{}, "digraph g \x7b\x7d".toUTF8, "svg"⟩

/-- The same call again. -/
def secondCall : Call :=
  firstCall.inWorld (firstCall.result (.scripted 0 svgScript) inFiles).2

/-- The same call when a file has taken the place of the directory, so that nothing can be read or
written. -/
def blockedCall : Call :=
  firstCall.inWorld { files := ⟨[(["c"], .file .empty)]⟩ }

theorem session_in_files :
    Session (.scripted 0 svgScript) inFiles [firstCall, secondCall, blockedCall] := by
  have hproper : FileStore.IsProper ⟨"c", Sha256.hex⟩ := Cache.FileStore.isProper_hex (by decide)
  have hspares : ∀ key, (Renderer.scripted 0 svgScript).Spares
      (FileStore.entryPlace ⟨"c", Sha256.hex⟩ key) := fun key => ⟨fun _ => rfl, fun _ _ _ => rfl⟩
  have hempty : ∀ key bytes, FileTree.get? {} (FileStore.entryPlace ⟨"c", Sha256.hex⟩ key) ≠
      some (.file bytes) := by
    intro key bytes hfile
    rw [FileTree.get?, hproper.standing?_entryPlace] at hfile
    cases hfile
  have hblocked : ∀ key bytes, blockedCall.world.files.get?
      (FileStore.entryPlace ⟨"c", Sha256.hex⟩ key) ≠ some (.file bytes) := by
    intro key bytes hfile
    -- the file stands above all entries
    have hne : FileStore.entryPlace ⟨"c", Sha256.hex⟩ key ≠ ["c"] := by
      intro heq
      simpa [FileStore.entryPlace] using congrArg List.length heq
    rw [blockedCall, Call.world_inWorld, FileTree.get?, hproper.standing?_entryPlace] at hfile
    simp [List.lookup_cons, beq_eq_false_iff_ne.2 hne] at hfile
  have hfirst : FileSession (.scripted 0 svgScript) inFiles ⟨"c", Sha256.hex⟩ [firstCall] _ :=
    .call (.start hempty) fun _ _ hfile => hfile
  have hsecond : FileSession (.scripted 0 svgScript) inFiles ⟨"c", Sha256.hex⟩
      [firstCall, secondCall] _ := .call hfirst fun _ _ hfile => by
    rwa [secondCall, Call.world_inWorld] at hfile
  have hthird : FileSession (.scripted 0 svgScript) inFiles ⟨"c", Sha256.hex⟩
      [firstCall, secondCall, blockedCall] _ :=
    .call hsecond fun key bytes hfile => absurd hfile (hblocked key bytes)
  exact hthird.session hproper rfl hspares

end Render
end ApiDiagrams
