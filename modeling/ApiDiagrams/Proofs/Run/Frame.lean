import ApiDiagrams.Proofs.Run.Files

/-!
# What the success of a run depends on

Writing files never makes or removes a directory, and images go where the output directory stands
already. So with a renderer that leaves the output directory alone, whether the files of a run can be
written is settled before the first diagram is rendered, whatever the renderer answers.

* `Reach`: the places that a run looks at when it writes its files;
* `Careful`: a renderer that leaves them alone;
* `SameDirs`: the same directories stand at these places;
* `exists_publish_iff`: when a run succeeds;
* `rendered_iff`: when a diagram has an image.
-/

namespace ApiDiagrams
namespace Run

open FileTree (placeOf)

/-! ### Directories in reach -/

/-- The places that a run looks at: its output directory, those above it, and what could be a file
of a run. -/
def Reach (dir : String) (p : Place) : Prop :=
  p <+: placeOf dir ∨
    ∃ stem ending, Dot.IsUid stem.toList ∧ p = placeOf dir ++ [fileName stem ending]

/-- The renderer leaves alone what a run looks at. -/
def Careful (r : Render.Renderer) (dir : String) : Prop := ∀ p, Reach dir p → r.Spares p

/-- The same places in reach are directories. -/
def SameDirs (dir : String) (t t' : FileTree) : Prop :=
  ∀ p, Reach dir p → (t.get? p = some .directory ↔ t'.get? p = some .directory)

namespace SameDirs

variable {dir : String} {t t' t'' : FileTree}

theorem refl (dir : String) (t : FileTree) : SameDirs dir t t := fun _ _ => Iff.rfl

theorem symm (h : SameDirs dir t t') : SameDirs dir t' t := fun p hp => (h p hp).symm

theorem trans (h : SameDirs dir t t') (h' : SameDirs dir t' t'') : SameDirs dir t t'' :=
  fun p hp => (h p hp).trans (h' p hp)

theorem of_write {path : String} {content : ByteArray} (h : t.write path content = .ok t') :
    SameDirs dir t t' := fun p _ => (FileTree.directory_write_iff h p).symm

theorem writable_iff (h : SameDirs dir t t') (hdir : dir ≠ "") {stem ending : String}
    (hs : Dot.IsUid stem.toList) (he : '/' ∉ ending.toList) :
    t.Writable (Path.join [dir, fileName stem ending]) ↔
      t'.Writable (Path.join [dir, fileName stem ending]) := by
  have hn := (isFileName_fileName hs he).toIsName
  have hreach : ∀ q, q <+: placeOf dir ∨ q = placeOf dir ++ [fileName stem ending] →
      Reach dir q := by
    rintro q (hq | rfl)
    · exact Or.inl hq
    · exact Or.inr ⟨stem, ending, hs, rfl⟩
  exact ⟨fun hw => hw.congr hdir hn fun q hq => h q (hreach q hq),
    fun hw => hw.congr hdir hn fun q hq => h.symm q (hreach q hq)⟩

end SameDirs

theorem Careful.sameDirs_render {r : Render.Renderer} {dir : String} (h : Careful r dir)
    (source : ByteArray) (format : String) (w : World) :
    SameDirs dir w.files ((r.render source format).run w).2.files := by
  intro p hp
  rw [(h p hp).render]

/-- Where a file of the directory can be reached, an answer is stored when its file can be written,
and no directory changes. -/
theorem store_of_leads {dir name other : String} {t : FileTree} (hdir : dir ≠ "")
    (hn : Path.IsName name) (ho : Path.IsName other) (h : t.Leads (Path.join [dir, other]))
    (answer : Except Fault ByteArray) :
    SameDirs dir t (t.store (Path.join [dir, name]) answer).1 ∧
      ((t.store (Path.join [dir, name]) answer).2 = true ↔
        (∃ bytes, answer = .ok bytes) ∧ t.Writable (Path.join [dir, name])) := by
  cases answer with
  | error f => exact ⟨SameDirs.refl dir t, by simp⟩
  | ok output =>
    unfold FileTree.store
    rw [Path.dir_join hdir hn, FileTree.makeDirs_clean_of_leads hdir ho h]
    cases hw : t.write (Path.join [dir, name]) output with
    | error e =>
      have hno : ¬ t.Writable (Path.join [dir, name]) := by
        intro hwritable
        rw [FileTree.write_eq_ok_iff.2 ⟨hwritable, rfl⟩] at hw
        cases hw
      simp only [hw]
      exact ⟨SameDirs.refl dir t, by simp [hno]⟩
    | ok t' =>
      simp only [hw]
      exact ⟨SameDirs.of_write hw, by simp [(FileTree.write_eq_ok_iff.1 hw).1]⟩

/-! ### Diagrams -/

theorem exists_writeFile_iff {dir name : String} (content : ByteArray) {w : World} :
    (∃ w', (writeFile dir name content).run w = (.ok (), w')) ↔
      w.files.Writable (Path.join [dir, name]) := by
  constructor
  · rintro ⟨w', h⟩
    obtain ⟨t, ht, -⟩ := writeFile_eq_ok_iff.1 h
    exact (FileTree.write_eq_ok_iff.1 ht).1
  · intro h
    exact ⟨_, writeFile_eq_ok_iff.2 ⟨_, FileTree.write_eq_ok_iff.2 ⟨h, rfl⟩, rfl⟩⟩

theorem sameDirs_writeFile {dir dir' name : String} {content : ByteArray} {w w' : World}
    (h : (writeFile dir name content).run w = (.ok (), w')) : SameDirs dir' w.files w'.files := by
  obtain ⟨t, ht, rfl⟩ := writeFile_eq_ok_iff.1 h
  exact SameDirs.of_write ht

section WriteGraph

variable {r : Render.Renderer} {opts : Options} {d : Directive} {g : Dot.Graph} {w w' : World}
  (hdir : opts.outDir ≠ "") (hf : '/' ∉ opts.format.toList) (hg : Dot.IsUid g.uid.toList)
  (hc : Careful r opts.outDir)

include hdir hf hg hc

/-- After its source, a diagram leaves all directories as they are. It has an image when the renderer
answers and the file can be written. -/
theorem sameDirs_mapWorld
    (hs : (writeFile opts.outDir (g.uid ++ ".dot") g.source).run w =
      (.ok (), imageWorld opts g w)) :
    SameDirs opts.outDir w.files (mapWorld r opts g w).files ∧
      ((outputIn r opts d g w).rendered = true ↔ (∃ bytes, imageAnswer r opts g w = .ok bytes) ∧
        w.files.Writable (Path.join [opts.outDir, fileName g.uid opts.format])) := by
  rw [uid_append_dot] at hs
  have hdot : Path.IsName (fileName g.uid "dot") := (isFileName_fileName hg (by decide)).toIsName
  have himage : Path.IsName (fileName g.uid opts.format) := (isFileName_fileName hg hf).toIsName
  obtain ⟨stored, rfl, hrendered, htold⟩ := told_mapWorld r opts d g w
  have hsame : SameDirs opts.outDir w.files
      ((r.render g.source opts.format).run (imageWorld opts g w)).2.files :=
    (sameDirs_writeFile hs).trans (hc.sameDirs_render _ _ _)
  -- the source could be written, so its directory still stands
  have hleads := ((hsame.writable_iff hdir hg (by decide)).1 ((exists_writeFile_iff _).1 ⟨_, hs⟩)).1
  obtain ⟨hstore, hiff⟩ := store_of_leads hdir himage hdot hleads (imageAnswer r opts g w)
  constructor
  · rw [htold.files]
    exact hsame.trans hstore
  · rw [hrendered, hsame.writable_iff hdir hg hf]
    exact hiff

theorem sameDirs_fragmentWorld
    (hs : (writeFile opts.outDir (g.uid ++ ".dot") g.source).run w =
      (.ok (), imageWorld opts g w)) :
    SameDirs opts.outDir w.files (fragmentWorld r opts g w).files := by
  rw [(told_fragmentWorld r opts g w).files]
  exact (sameDirs_mapWorld (d := default) hdir hf hg hc hs).1.trans (hc.sameDirs_render _ _ _)

theorem sameDirs_writeGraph {out : Output} (h : (writeGraph r opts d g).run w = (.ok out, w')) :
    SameDirs opts.outDir w.files w'.files := by
  obtain ⟨hs, -, ht⟩ := writeGraph_eq_ok_iff.1 h
  exact (sameDirs_fragmentWorld hdir hf hg hc hs).trans (sameDirs_writeFile ht)

/-- The files of a diagram are written when its source and its fragment can be. -/
theorem exists_writeGraph_iff : (∃ out w', (writeGraph r opts d g).run w = (.ok out, w')) ↔
    w.files.Writable (Path.join [opts.outDir, fileName g.uid "dot"]) ∧
      w.files.Writable (Path.join [opts.outDir, fileName g.uid "html"]) := by
  constructor
  · rintro ⟨out, w', h⟩
    obtain ⟨hs, -, ht⟩ := writeGraph_eq_ok_iff.1 h
    have hsame := sameDirs_fragmentWorld hdir hf hg hc hs
    rw [uid_append_dot] at hs
    rw [uid_append_html] at ht
    exact ⟨(exists_writeFile_iff _).1 ⟨_, hs⟩,
      (hsame.writable_iff hdir hg (by decide)).2 ((exists_writeFile_iff _).1 ⟨_, ht⟩)⟩
  · rintro ⟨hdot, hhtml⟩
    rw [← uid_append_dot] at hdot
    obtain ⟨w₁, hs⟩ := (exists_writeFile_iff g.source).2 hdot
    obtain rfl : imageWorld opts g w = w₁ := congrArg Prod.snd hs
    have hsame := sameDirs_fragmentWorld hdir hf hg hc hs
    rw [hsame.writable_iff hdir hg (by decide), ← uid_append_html] at hhtml
    obtain ⟨w', ht⟩ := (exists_writeFile_iff (fragmentFile r opts g w)).2 hhtml
    exact ⟨_, w', writeGraph_eq_ok_iff.2 ⟨hs, rfl, ht⟩⟩

end WriteGraph

section Publish

variable {r : Render.Renderer} {opts : Options} {w w' : World}
  (hdir : opts.outDir ≠ "") (hf : '/' ∉ opts.format.toList) (hc : Careful r opts.outDir)

include hdir hf hc

theorem sameDirs_writeAll {graphs : List (Directive × Dot.Graph)}
    (hg : ∀ x ∈ graphs, Dot.IsUid x.2.uid.toList) {outs : List Output}
    (h : (Runner.writeAll r opts graphs).run w = (.ok outs, w')) :
    SameDirs opts.outDir w.files w'.files := by
  induction graphs generalizing w outs with
  | nil =>
    cases h
    exact SameDirs.refl _ _
  | cons x graphs ih =>
    obtain ⟨out, w₁, rest, hfirst, hrest, -⟩ := Runner.writeAll_cons_eq_ok_iff.1 h
    have hsame := sameDirs_writeGraph hdir hf (hg x List.mem_cons_self) hc hfirst
    exact hsame.trans (ih (fun y hy => hg y (List.mem_cons_of_mem _ hy)) hrest)

/-- The files of all diagrams are written when their sources and fragments can be from the start. -/
theorem exists_writeAll_iff {graphs : List (Directive × Dot.Graph)}
    (hg : ∀ x ∈ graphs, Dot.IsUid x.2.uid.toList) :
    (∃ outs w', (Runner.writeAll r opts graphs).run w = (.ok outs, w')) ↔ ∀ x ∈ graphs,
      w.files.Writable (Path.join [opts.outDir, fileName x.2.uid "dot"]) ∧
        w.files.Writable (Path.join [opts.outDir, fileName x.2.uid "html"]) := by
  induction graphs generalizing w with
  | nil => exact ⟨fun _ x hx => (by cases hx), fun _ => ⟨[], w, rfl⟩⟩
  | cons x graphs ih =>
    obtain ⟨d, g⟩ := x
    have hlegal : Dot.IsUid g.uid.toList := hg (d, g) List.mem_cons_self
    have hrest := fun y hy => hg y (List.mem_cons_of_mem _ hy)
    have hfirst := exists_writeGraph_iff (d := d) (w := Runner.turnOf r opts [] g w) hdir hf hlegal hc
    rw [Runner.files_turnOf_nil] at hfirst
    -- a first diagram that was written changes no directory, so the others see those of the start
    have hsame : ∀ {out w₁}, (writeGraph r opts d g).run (Runner.turnOf r opts [] g w) =
        (.ok out, w₁) → ∀ y ∈ graphs,
          (w.files.Writable (Path.join [opts.outDir, fileName y.2.uid "dot"]) ∧
            w.files.Writable (Path.join [opts.outDir, fileName y.2.uid "html"])) ↔
          (w₁.files.Writable (Path.join [opts.outDir, fileName y.2.uid "dot"]) ∧
            w₁.files.Writable (Path.join [opts.outDir, fileName y.2.uid "html"])) := by
      intro out w₁ h y hy
      have hdirs := sameDirs_writeGraph hdir hf hlegal hc h
      rw [Runner.files_turnOf_nil] at hdirs
      rw [hdirs.writable_iff hdir (hrest y hy) (by decide),
        hdirs.writable_iff hdir (hrest y hy) (by decide)]
    rw [List.forall_mem_cons]
    constructor
    · rintro ⟨outs, w', h⟩
      obtain ⟨out, w₁, more, hgraph, hmore, -⟩ := Runner.writeAll_cons_eq_ok_iff.1 h
      refine ⟨hfirst.1 ⟨out, w₁, hgraph⟩, fun y hy => (hsame hgraph y hy).2 ?_⟩
      exact (ih hrest).1 ⟨more, w', hmore⟩ y hy
    · rintro ⟨hnow, hlater⟩
      obtain ⟨out, w₁, hgraph⟩ := hfirst.2 hnow
      obtain ⟨more, w', hmore⟩ := (ih (w := w₁) hrest).2 fun y hy =>
        (hsame hgraph y hy).1 (hlater y hy)
      exact ⟨out :: more, w', Runner.writeAll_cons_eq_ok_iff.2 ⟨out, w₁, more, hgraph, hmore, rfl⟩⟩

/-- A diagram has an image when the renderer answers in its turn and the file can be written from
the start. -/
theorem rendered_iff {before after : List (Directive × Dot.Graph)} {d : Directive} {g : Dot.Graph}
    (hg : ∀ x ∈ before ++ (d, g) :: after, Dot.IsUid x.2.uid.toList) {outs : List Output}
    (h : (Runner.writeAll r opts (before ++ (d, g) :: after)).run w = (.ok outs, w')) :
    ∃ o, outs[before.length]? = some o ∧ (o.rendered = true ↔
      (∃ bytes, imageAnswer r opts g (Runner.turnOf r opts before g w) = .ok bytes) ∧
        w.files.Writable (Path.join [opts.outDir, fileName g.uid opts.format])) := by
  have hlegal : Dot.IsUid g.uid.toList := hg (d, g) (by simp)
  obtain ⟨done, w₁, w₂, more, hdone, hturn, hgraph, -, hout⟩ := Runner.writeAll_at h
  have hsame := sameDirs_writeAll hdir hf hc (fun x hx => hg x (List.mem_append_left _ hx)) hdone
  refine ⟨_, hout, ?_⟩
  rw [hsame.writable_iff hdir hlegal hf, ← hturn]
  exact (sameDirs_mapWorld hdir hf hlegal hc (writeGraph_eq_ok_iff.1 hgraph).1).2

/-- **A run publishes its diagrams when all sources and fragments and the page of all diagrams can be
written from the start.** -/
theorem exists_publish_iff {graphs : List (Directive × Dot.Graph)}
    (hg : ∀ x ∈ graphs, Dot.IsUid x.2.uid.toList) (skipped : ℕ) :
    (∃ res w', (Runner.publish r opts graphs skipped).run w = (.ok res, w')) ↔
      (∀ x ∈ graphs, w.files.Writable (Path.join [opts.outDir, fileName x.2.uid "dot"]) ∧
        w.files.Writable (Path.join [opts.outDir, fileName x.2.uid "html"])) ∧
      (opts.noIndex = true ∨ w.files.Writable (Path.join [opts.outDir, indexFile])) := by
  have hindex : ∀ {outs w₁}, (Runner.writeAll r opts graphs).run w = (.ok outs, w₁) →
      (w.files.Writable (Path.join [opts.outDir, indexFile]) ↔
        w₁.files.Writable (Path.join [opts.outDir, indexFile])) := by
    intro outs w₁ h
    rw [indexFile_eq]
    exact (sameDirs_writeAll hdir hf hc hg h).writable_iff hdir isUid_index (by decide)
  rw [← exists_writeAll_iff hdir hf hc hg]
  constructor
  · rintro ⟨res, w', h⟩
    obtain ⟨w₁, w₂, hwrite, -, hfinish, -⟩ := Runner.publish_eq_ok_iff.1 h
    refine ⟨⟨_, w₁, hwrite⟩, ?_⟩
    rcases Runner.finish_eq_ok_iff.1 hfinish with ⟨hno, -⟩ | ⟨-, w₃, hpage, -⟩
    · exact Or.inl hno
    · have hwritable := (exists_writeFile_iff _).1 ⟨w₃, hpage⟩
      exact Or.inr ((hindex hwrite).2 hwritable)
  · rintro ⟨⟨outs, w₁, hwrite⟩, hpage⟩
    have hfinish : ∃ w₂, (Runner.finish opts outs).run
        ((Effect.notify (.finish .render)).run w₁).2 = (.ok (), w₂) := by
      cases hno : opts.noIndex with
      | true => exact ⟨_, Runner.finish_eq_ok_iff.2 (Or.inl ⟨hno, rfl⟩)⟩
      | false =>
        rw [hno] at hpage
        have hwritable := (hindex hwrite).1 (hpage.resolve_left Bool.false_ne_true)
        obtain ⟨w₃, hw₃⟩ := (exists_writeFile_iff (w := Runner.pageWorld
          ((Effect.notify (.finish .render)).run w₁).2) _).2 hwritable
        exact ⟨_, Runner.finish_eq_ok_iff.2 (Or.inr ⟨hno, w₃, hw₃, rfl⟩)⟩
    obtain ⟨w₂, hw₂⟩ := hfinish
    exact ⟨⟨outs, skipped⟩, _, Runner.publish_eq_ok_iff.2 ⟨w₁, w₂, hwrite, rfl, hw₂, rfl⟩⟩

end Publish

end Run
end ApiDiagrams
