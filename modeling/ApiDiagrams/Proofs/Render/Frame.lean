import ApiDiagrams.Cache.Shared
import ApiDiagrams.Proofs.Cache.Attempts
import ApiDiagrams.Proofs.Render.Cached
import ApiDiagrams.Proofs.Run.Writing
import ApiDiagrams.Render.Command

/-!
# What rendering leaves alone

Rendering with a store reads and writes files below the directory of the store only, and makes the
directories on the way there. Of the files that were there before, wherever they are, it touches only
the one of the key that the rendering is about. A store on a server is asked, and touches no file.

* `FileTree.KeptFor`: a place while a store below some directory is used;
* `Cache.FileStore.keptFor_get`, `Cache.FileStore.keptFor_setOn`, `Cache.FileStore.openAt_run`: reading
  and writing, on every disk, and opening;
* `Cache.Shared.tryAsk_run`: what a server is asked; `Cache.Store.Spares`: stores without files;
* `Effect.Spares`: effects that leave a place alone, and how they are put together;
* `Render.Renderer.spares_command`, `Render.Renderer.spares_embedded`, `Render.Renderer.spares_chain`:
  renderers that touch no more than the programs they run;
* `Render.Call.frame`: whatever all steps of a rendering preserve, the rendering preserves;
* `Render.Call.keptFor_result`, `Render.Call.get?_result_of_spares`: rendering with the store of some
  directory, and with one that has no files.
-/

namespace ApiDiagrams

/-! ### Places -/

namespace FileTree

variable {dir : String} {p : Place} {t t' t'' : FileTree} {content : ByteArray}

/-- The place lies on the way to a directory. -/
def OnTheWay (dir : String) (p : Place) : Prop :=
  (∃ front ∈ Path.fronts dir, p = placeOf front) ∨ p <+: placeOf dir

/-- What stands at a place still does. Where nothing stood something may be new, below the
directory or, if it is a directory, on the way there. -/
def KeptFor (dir : String) (p : Place) (t t' : FileTree) : Prop :=
  t'.get? p = t.get? p ∨
    t.get? p = none ∧ (placeOf dir <+: p ∨ t'.get? p = some .directory ∧ OnTheWay dir p)

namespace KeptFor

theorem of_eq (h : t'.get? p = t.get? p) : KeptFor dir p t t' := Or.inl h

theorem refl (dir : String) (p : Place) (t : FileTree) : KeptFor dir p t t := Or.inl rfl

theorem trans (h : KeptFor dir p t t') (h' : KeptFor dir p t' t'') : KeptFor dir p t t'' := by
  rcases h with heq | ⟨hnone, hnew⟩
  · unfold KeptFor
    rw [← heq]
    exact h'
  · refine Or.inr ⟨hnone, ?_⟩
    rcases hnew with hbelow | ⟨hdir, hway⟩
    · exact Or.inl hbelow
    · rcases h' with heq | ⟨hnone', -⟩
      · exact Or.inr ⟨heq.trans hdir, hway⟩
      · rw [hdir] at hnone'
        cases hnone'

/-- A file that is there stays as it is. -/
theorem file (h : KeptFor dir p t t') (hp : t.get? p = some (.file content)) :
    t'.get? p = some (.file content) := by
  rcases h with heq | ⟨hnone, -⟩
  · rw [heq, hp]
  · rw [hp] at hnone
    cases hnone

/-- Elsewhere only directories on the way are new. -/
theorem elsewhere (h : KeptFor dir p t t') (hp : ¬ placeOf dir <+: p) :
    t'.get? p = t.get? p ∨
      t.get? p = none ∧ t'.get? p = some .directory ∧ OnTheWay dir p := by
  refine h.imp_right ?_
  rintro ⟨hnone, hnew⟩
  exact ⟨hnone, hnew.resolve_left hp⟩

theorem of_made (h : Made (Path.fronts dir) t t') : KeptFor dir p t t' := by
  refine (h p).imp_right ?_
  rintro ⟨hnone, hdir, hfront⟩
  exact ⟨hnone, Or.inr ⟨hdir, Or.inl hfront⟩⟩

end KeptFor
end FileTree

/-! ### The store -/

namespace Cache
namespace FileStore

open FileTree (placeOf KeptFor OnTheWay)

variable {s : FileStore} {key : String} {p : Place} {t t' : FileTree}

/-- Reading removes no file but that of the key. -/
theorem keptFor_get (h : s.IsProper) (hp : p ≠ s.entryPlace key) (w : World) :
    KeptFor s.dir p w.files ((s.get key).run w).2.files := by
  cases hread : w.files.read (s.entryPath key) with
  | error e =>
    rw [get_run_of_error hread]
    exact KeptFor.refl s.dir p w.files
  | ok bytes =>
    rw [get_run_of_read hread]
    cases fresh? key w.now bytes with
    | some data => exact KeptFor.refl s.dir p w.files
    | none =>
      refine KeptFor.of_eq ?_
      dsimp only
      rw [FileTree.get?_drop, h.placeOf_entryPath, if_neg hp]

theorem keptFor_of_agreeBut (h : s.IsProper) (hagree : s.AgreeBut key (fun _ => False) t t') :
    KeptFor s.dir p t t' := by
  refine (hagree p id).imp_right ?_
  rintro ⟨hnone, hdir, hway⟩
  refine ⟨hnone, ?_⟩
  rw [(h.entryDir_eq key).2, List.prefix_concat_iff] at hway
  rcases hway with rfl | habove
  · exact Or.inl (List.prefix_append _ _)
  · exact Or.inr ⟨hdir, Or.inr habove⟩

theorem keptFor_of_placed (h : s.IsProper) {content : ByteArray} {n : ℕ}
    {out : FileTree × Except (Disk.Step × Fault) Unit} (hplaced : Placed s key content n t out)
    (hp : p ≠ s.entryPlace key) : KeptFor s.dir p t out.1 := by
  cases hplaced with
  | undone early same => exact KeptFor.of_eq (same p)
  | left free there rest =>
    by_cases htemporary : p = s.temporaryPlace key n
    · refine Or.inr ⟨htemporary ▸ free, Or.inl ?_⟩
      rw [htemporary, temporaryPlace, (h.entryDir_eq key).2, List.append_assoc]
      exact List.prefix_append _ _
    · exact KeptFor.of_eq (rest p htemporary)
  | moved read rest => exact KeptFor.of_eq (rest p hp)

/-- Writing changes no file that was there but that of the key, whatever goes wrong. -/
theorem keptFor_setOn (h : s.IsProper) (hp : p ≠ s.entryPlace key) (d : Disk) (data : ByteArray)
    (ttl : ℤ) (w : World) :
    KeptFor s.dir p w.files ((s.setOn d key data ttl).run w).2.files := by
  by_cases hw : (entryAt key data ttl w.now).isWritable = true
  · have hdirs := keptFor_of_agreeBut (p := p) h (agreeBut_makeDirs h d w.files key)
    rcases hmake : d.makeDirs w.files (s.entryDir key) with ⟨made, f | ⟨⟩⟩
    · rw [hmake] at hdirs
      rw [setOn_run_of_no_directory hw hmake]
      exact hdirs
    · rw [hmake] at hdirs
      rw [setOn_run_of_directory hw hmake]
      exact hdirs.trans (keptFor_of_placed h (placed_of_place h d made key _) hp)
  · rw [setOn_run_of_unwritable (by simpa using hw)]
    exact KeptFor.refl s.dir p w.files

theorem keptFor_set (h : s.IsProper) (hp : p ≠ s.entryPlace key) (data : ByteArray) (ttl : ℤ)
    (w : World) : KeptFor s.dir p w.files ((s.set key data ttl).run w).2.files :=
  keptFor_setOn h hp {} data ttl w

/-- Opening a store makes the directories on the way to it, all of them or those before the failure. -/
theorem openAt_run (digest : Digest) (dir : String) (w : World) :
    FileTree.Made (Path.fronts dir) w.files ((openAt digest dir).run w).2.files ∧
      ∀ opened, ((openAt digest dir).run w).1 = .ok opened → opened = ⟨dir, digest⟩ ∧ dir ≠ "" := by
  have hmade := FileTree.made_makeDirs w.files dir
  unfold openAt
  rw [Effect.run_bind, Effect.makeDirs_run]
  rcases hmake : w.files.makeDirs dir with ⟨t, ⟨front, e⟩ | ⟨⟩⟩
  · rw [hmake] at hmade
    exact ⟨hmade, nofun⟩
  · rw [hmake] at hmade
    refine ⟨hmade, ?_⟩
    rintro opened ⟨⟩
    refine ⟨rfl, ?_⟩
    rintro rfl
    cases hmake

end FileStore

/-! ### Stores without files -/

/-- Reading and writing leave a place alone. -/
structure Store.Spares (s : Store) (p : Place) : Prop where
  get : ∀ key w, ((s.get key).run w).2.files.get? p = w.files.get? p
  set : ∀ key data ttl w, ((s.set key data ttl).run w).2.files.get? p = w.files.get? p

theorem Store.spares_null (p : Place) : Store.null.Spares p :=
  ⟨fun _ _ => rfl, fun _ _ _ _ => rfl⟩

/-- Work that is noted down each time is tried at most one time more than it is tried again. -/
theorem retryTimes_run {α : Type} {isCancelled : Effect Bool} {work : Effect (Except Fault α)}
    {note : String × ServerRequest} (hc : ∀ w, (isCancelled.run w).2 = w)
    (hw : ∀ w, (work.run w).2 = { w with asked := w.asked ++ [note] }) (n : ℕ) (w : World) :
    ∃ k ≤ n, ((retryTimes isCancelled work n).run w).2 =
      { w with asked := w.asked ++ List.replicate (k + 1) note } := by
  induction n generalizing w with
  | zero => exact ⟨0, le_refl 0, hw w⟩
  | succ n ih =>
    have hstop : ∃ k ≤ n + 1, (work.run w).2 =
        { w with asked := w.asked ++ List.replicate (k + 1) note } := ⟨0, Nat.zero_le _, hw w⟩
    rw [retryTimes, Effect.run_bind]
    cases (work.run w).1 with
    | ok a => exact hstop
    | error f =>
      by_cases hf : (!f.isTransient) = true
      · simp only [if_pos hf]
        exact hstop
      · simp only [if_neg hf]
        rw [Effect.run_bind, hc]
        cases (isCancelled.run (work.run w).2).1 with
        | true => exact hstop
        | false =>
          obtain ⟨k, hk, hrun⟩ := ih (work.run w).2
          have hnotes : w.asked ++ List.replicate (k + 1 + 1) note =
              w.asked ++ [note] ++ List.replicate (k + 1) note := by
            rw [List.replicate_succ, List.append_cons]
          refine ⟨k + 1, Nat.succ_le_succ hk, hrun.trans ?_⟩
          rw [hw, hnotes]

namespace Shared

/-- A server is asked for one thing, between once and three times, and nothing else changes. -/
theorem tryAsk_run (s : Shared) (r : ServerRequest) (w : World) :
    ∃ k < attempts, ((s.tryAsk r).run w).2 =
      { w with asked := w.asked ++ List.replicate (k + 1) (s.address, r) } := by
  let isCancelled : Effect Bool := do return (← get).cancelled
  let work : Effect (Except Fault r.Answer) :=
    do return (← ask s.servers s.address r).mapError .ofBackend
  have hc : ∀ w, (isCancelled.run w).2 = w := fun _ => rfl
  have hw : ∀ w, (work.run w).2 = { w with asked := w.asked ++ [(s.address, r)] } := fun _ => rfl
  obtain ⟨k, hk, hrun⟩ := retryTimes_run hc hw (attempts - 1) w
  exact ⟨k, Nat.lt_succ_of_le hk, hrun⟩

theorem files_tryAsk (s : Shared) (r : ServerRequest) (w : World) :
    ((s.tryAsk r).run w).2.files = w.files := by
  obtain ⟨k, -, hrun⟩ := s.tryAsk_run r w
  rw [hrun]

theorem spares_store (s : Shared) (p : Place) : s.store.Spares p where
  get key w := congrArg (·.get? p) (s.files_tryAsk (.get (front ++ key)) w)
  set key data ttl w := congrArg (·.get? p) (s.files_tryAsk (.set (front ++ key) data (max ttl 0)) w)

theorem files_openAt (servers : Servers) (address : String) (w : World) :
    ((openAt servers address).run w).2.files = w.files :=
  files_tryAsk ⟨servers, address⟩ .ping w

end Shared
end Cache

/-! ### Effects -/

/-- The effect never changes what stands at a place. -/
def Effect.Spares {α : Type} (x : Effect α) (p : Place) : Prop :=
  ∀ w, (x.run w).2.files.get? p = w.files.get? p

namespace Effect.Spares

variable {α β : Type} {x : Effect α} {f : α → Effect β} {p : Place}

theorem bind (hx : x.Spares p) (hf : ∀ a, (f a).Spares p) : (x >>= f).Spares p := fun w =>
  (hf (x.run w).1 (x.run w).2).trans (hx w)

theorem pure (a : α) (p : Place) : (Pure.pure a : Effect α).Spares p := fun _ => rfl

theorem log (r : Log.Record) (p : Place) : (Effect.log r).Spares p := fun w =>
  congrArg (·.get? p) (told_log r w).files

theorem report (e : Watch.Event) (p : Place) : (Effect.report e).Spares p := fun w =>
  congrArg (·.get? p) (told_report e w).files

end Effect.Spares

/-! ### Programs and renderers -/

/-- Whatever the programs are asked to do, they leave a place alone. -/
def Tool.Programs.Spares (programs : Tool.Programs) (p : Place) : Prop :=
  ∀ env files command args input r files',
    programs env files command args input = .ok (r, files') → files'.get? p = files.get? p

namespace Render

variable {programs : Tool.Programs} {p : Place}

theorem spares_layout (h : programs.Spares p) (command : String) (args : List String)
    (input : ByteArray) : (layout command args input programs).Spares p := by
  intro w
  unfold layout
  rw [Effect.run_bind, Effect.get_run]
  dsimp only
  cases hrun : programs w.env w.files command args input with
  | error r => rfl
  | ok out => exact h _ _ _ _ _ out.1 out.2 hrun

theorem spares_detect (h : programs.Spares p) (command : String) :
    (detect programs command).Spares p := by
  refine (spares_layout h _ _ _).bind fun l => ?_
  cases l.failure with
  | none => exact (Effect.Spares.log _ p).bind fun _ => .pure _ p
  | some f => exact (Effect.Spares.log _ p).bind fun _ => .pure _ p

namespace Renderer

theorem spares_detectedVersion (h : programs.Spares p) (command : String) :
    (detectedVersion programs command).Spares p := by
  intro w
  unfold detectedVersion
  rw [Effect.run_bind, Effect.get_run]
  dsimp only
  cases w.detected.lookup command with
  | some v => rfl
  | none => exact spares_detect h command w

theorem spares_renderWith (h : programs.Spares p) (command : String) (source : ByteArray)
    (format : String) : (renderWith programs command source format).Spares p := by
  unfold renderWith
  cases Validation.checkFormat (Text.Raw.ofString format) with
  | error f => exact .pure _ p
  | ok =>
    refine (Effect.Spares.report _ p).bind fun _ => (spares_layout h _ _ _).bind fun l => ?_
    cases l.failure with
    | some f => exact (Effect.Spares.report _ p).bind fun _ => .pure _ p
    | none =>
      refine (Effect.Spares.report _ p).bind fun _ => ?_
      dsimp only
      split_ifs
      · exact (Effect.Spares.log _ p).bind fun _ => .pure _ p
      · exact .pure _ p

/-- A layout tool leaves alone what the programs leave alone. -/
theorem spares_command (h : programs.Spares p) (name : String) (w : World) :
    ((command name programs).run w).1.Spares p :=
  ⟨spares_detectedVersion h _, spares_renderWith h _⟩

theorem spares_renderEmbedded (h : programs.Spares p) (l : Library) (source : ByteArray)
    (format : String) : (renderEmbedded l programs source format).Spares p := by
  unfold renderEmbedded
  split_ifs
  · cases l.layout source "svg" with
    | error f => exact .pure _ p
    | ok picture =>
      refine (spares_layout h _ _ _).bind fun l => ?_
      cases l.failure with
      | none => exact .pure _ p
      | some f =>
        dsimp only
        split_ifs <;> exact .pure _ p
  · cases embeddedFormats.lookup format <;> exact .pure _ p

/-- A layout library touches no file, and the program that makes pages is one of the programs. -/
theorem spares_embedded (h : programs.Spares p) (l : Library) : (embedded l programs).Spares p where
  version _ := rfl
  render source format :=
    (Effect.Spares.report _ p).bind fun _ => (spares_renderEmbedded h l source format).bind fun _ =>
      (Effect.Spares.report _ p).bind fun _ => .pure _ p

theorem spares_renderChain {members : List Renderer} (h : ∀ r ∈ members, r.Spares p)
    (source : ByteArray) (format : String) (last : Option Fault) :
    (renderChain source format last members).Spares p := by
  induction members generalizing last with
  | nil => cases last <;> exact .pure _ p
  | cons r rest ih =>
    have hfirst : (r.render source format).Spares p := (h r List.mem_cons_self).render source format
    rw [renderChain]
    refine hfirst.bind fun answer => ?_
    cases answer with
    | ok output => exact .pure _ p
    | error f =>
      dsimp only
      split_ifs
      · exact (Effect.Spares.log _ p).bind fun _ =>
          ih (fun r' hr' => h r' (List.mem_cons_of_mem _ hr')) (some f)
      · exact .pure _ p

theorem spares_versionChain {members : List Renderer} (h : ∀ r ∈ members, r.Spares p) :
    (versionChain members).Spares p := by
  induction members with
  | nil => exact .pure _ p
  | cons r rest ih =>
    have hfirst : r.version.Spares p := (h r List.mem_cons_self).version
    refine hfirst.bind fun v => ?_
    split_ifs
    · exact ih fun r' hr' => h r' (List.mem_cons_of_mem _ hr')
    · exact .pure _ p

/-- A chain leaves alone what all its renderers leave alone. -/
theorem spares_chain {members : List Renderer} (h : ∀ r ∈ members, r.Spares p) :
    (chain members).Spares p where
  version := spares_versionChain h
  render source format := spares_renderChain h source format none

end Renderer
end Render

/-! ### Rendering -/

namespace Render
namespace Call

open FileTree (KeptFor)

variable {r : Renderer} {c : Caching} {q : Call}

theorem files_missed : (q.missed r c).files = (q.reading r c).2.files := by
  unfold missed
  rw [(told_report _ _).files]
  cases (q.reading r c).1 with
  | ok found => rfl
  | error f => exact (told_log _ _).files

/-- Whatever the renderer and the store preserve, a call of the renderer with the store preserves. -/
theorem frame {R : FileTree → FileTree → Prop}
    (htrans : ∀ {t t' t''}, R t t' → R t' t'' → R t t'')
    (hversion : R q.world.files (q.keying r c).2.files)
    (hget : ∀ w, R w.files ((c.store.get (q.key r c)).run w).2.files)
    (hset : ∀ data w, R w.files ((c.store.set (q.key r c) data c.ttl).run w).2.files)
    (hrender : ∀ w, R w.files ((r.render q.source q.format).run w).2.files) :
    R q.world.files (q.result r c).2.files := by
  have hread : R q.world.files (q.reading r c).2.files := htrans hversion (hget (q.keying r c).2)
  cases hhit : q.hit? r c with
  | some data =>
    rw [result_of_hit hhit, (told_report _ _).files]
    exact hread
  | none =>
    have hanswer : R q.world.files (q.rendering r c).2.files := by
      have hasked := hrender (q.missed r c)
      rw [files_missed] at hasked
      exact htrans hread hasked
    cases hrendering : (q.rendering r c).1 with
    | error f =>
      rw [result_of_error hhit hrendering]
      exact hanswer
    | ok output =>
      have hkept := htrans hanswer (hset output (q.rendering r c).2)
      rw [result_of_ok hhit hrendering]
      generalize (c.store.set (q.key r c) output c.ttl).run (q.rendering r c).2 = after at hkept ⊢
      obtain ⟨kept, w⟩ := after
      cases kept with
      | ok _ =>
        dsimp only
        rw [(told_report _ _).files]
        exact hkept
      | error f =>
        dsimp only
        rw [(told_log _ _).files]
        exact hkept

/-- Rendering with a file store touches no file that was there but that of its key. -/
theorem keptFor_result {s : Cache.FileStore} (h : s.IsProper) (hstore : c.store = s.store)
    {p : Place} (hr : r.Spares p) (hp : p ≠ s.entryPlace (q.key r c)) :
    KeptFor s.dir p q.world.files (q.result r c).2.files := by
  refine frame KeptFor.trans (KeptFor.of_eq ?_) (fun w => ?_) (fun data w => ?_) fun w => ?_
  · rw [keying_snd, hr.version]
  · rw [hstore]
    exact Cache.FileStore.keptFor_get h hp w
  · rw [hstore]
    exact Cache.FileStore.keptFor_set h hp data c.ttl w
  · exact KeptFor.of_eq (hr.render q.source q.format w)

/-- Rendering with a store that has no files touches none. -/
theorem get?_result_of_spares {p : Place} (hstore : c.store.Spares p) (hr : r.Spares p) :
    (q.result r c).2.files.get? p = q.world.files.get? p := by
  refine frame (R := fun t t' => t'.get? p = t.get? p) (fun h h' => h'.trans h) ?_
    (hstore.get (q.key r c)) (fun data => hstore.set (q.key r c) data c.ttl)
    (hr.render q.source q.format)
  rw [keying_snd, hr.version]

end Call
end Render
end ApiDiagrams
