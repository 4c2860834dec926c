import ApiDiagrams.Proofs.Run.Names

/-!
# Writing the files of a run

The source of a diagram is written first, then its image if the renderer answers, then its page
fragment; the page of all diagrams comes last. Each step is described by what stands at a place after
it, for every place that the renderer leaves alone.

* `Spares`: a renderer that leaves a place alone;
* `FileFault`: how a run fails because of its files;
* `imageWorld`, `mapWorld`, `fragmentWorld`: the worlds between the steps of one diagram, and
  `imageAnswer`, `mapAnswer`: what the renderer answers there;
* `writeGraph_eq_ok_iff`, `get?_writeGraph`: the files of one diagram;
* `writeAll_cons_eq_ok_iff`, `writeAll_at`, `get?_writeAll_of_not_mem`: those of all diagrams;
* `publish_eq_ok_iff`, `fileFault_of_publish`: all stages from rendering on.
-/

namespace ApiDiagrams

open FileTree (placeOf)

/-! ### Renderers -/

/-- The renderer never changes what stands at a place. -/
structure Render.Renderer.Spares (r : Render.Renderer) (p : Place) : Prop where
  version : ∀ w, (r.version.run w).2.files.get? p = w.files.get? p
  render : ∀ source format w, ((r.render source format).run w).2.files.get? p = w.files.get? p

/-! ### Images -/

/-- Stores an answer of the renderer as a file, making its directory as needed. Says whether the
file was written. -/
def FileTree.store (t : FileTree) (path : String) : Except Fault ByteArray → FileTree × Bool
  | .error _ => (t, false)
  | .ok output =>
    match t.makeDirs (Path.dir path) with
    | (t, .error _) => (t, false)
    | (t, .ok ()) =>
      match t.write path output with
      | .error _ => (t, false)
      | .ok t => (t, true)

@[simp] theorem FileTree.store_error (t : FileTree) (path : String) (f : Fault) :
    t.store path (.error f) = (t, false) := rfl

namespace Dot.Graph

variable {g : Graph} {r : Render.Renderer} {format : String} {w v : World}
  {answer : Except Fault ByteArray}

theorem render_run (h : (r.render g.source format).run w = (answer, v)) :
    ∃ v', (g.render r format).run w = (answer.toOption, v') ∧ Told [] v v' := by
  unfold render
  rw [Effect.run_bind, h]
  cases answer with
  | ok output => exact ⟨v, rfl, Told.refl v⟩
  | error f => exact ⟨_, rfl, told_log _ v⟩

theorem renderToFile_run (h : (r.render g.source format).run w = (answer, v)) (path : String) :
    ∃ v', (g.renderToFile r path format).run w = ((v.files.store path answer).2, v') ∧
      Told [] { v with files := (v.files.store path answer).1 } v' := by
  obtain ⟨u, hu, htold⟩ := render_run h
  unfold renderToFile
  rw [Effect.run_bind, hu, ← htold.files]
  cases answer with
  | error f => exact ⟨u, rfl, by rw [htold.files]; exact htold⟩
  | ok output =>
    change ∃ v', (Effect.makeDirs (Path.dir path) >>= _ : Effect Bool).run u = _ ∧ _
    rw [Effect.run_bind, Effect.makeDirs_run]
    unfold FileTree.store
    rcases u.files.makeDirs (Path.dir path) with ⟨t, e | ⟨⟩⟩
    · exact ⟨_, rfl, (htold.withFiles t).trans (told_log _ _)⟩
    · change ∃ v', (Effect.onFiles (·.write path output) >>= _ : Effect Bool).run
        { u with files := t } = _ ∧ _
      rw [Effect.run_bind]
      cases ht : t.write path output with
      | error e =>
        rw [Effect.onFiles_run_error (by exact ht)]
        simp only [ht]
        exact ⟨_, rfl, (htold.withFiles t).trans (told_log _ _)⟩
      | ok t' =>
        rw [Effect.onFiles_run_ok (by exact ht)]
        simp only [ht]
        exact ⟨_, rfl, htold.withFiles t'⟩

theorem toHtml_run (h : (r.render g.source "cmapx").run w = (answer, v)) (imageUrl : String)
    (center : Bool) :
    ∃ v', (g.toHtml r imageUrl center).run w =
      (g.fragment (answer.toOption.getD .empty) imageUrl center, v') ∧ Told [] v v' := by
  obtain ⟨u, hu, htold⟩ := render_run h
  refine ⟨u, ?_, htold⟩
  unfold toHtml
  rw [Effect.run_bind, hu]
  rfl

end Dot.Graph

/-- Storing an answer changes nothing but the file's place, as long as nothing else has changed
since its directory stood. -/
theorem FileTree.get?_store {t t' : FileTree} {path name : String} (hp : path ≠ "")
    (hn : IsFileName name) (h : t.Stands path) {q : Place} (hq : t'.get? q = t.get? q)
    (answer : Except Fault ByteArray) :
    (t'.store (Path.join [path, name]) answer).1.get? q =
      if q = placeOf path ++ [name] ∧ (t'.store (Path.join [path, name]) answer).2 = true then
        answer.toOption.map .file
      else t'.get? q := by
  cases answer with
  | error f => simp
  | ok output =>
    have hmade := get?_makeDirs_clean h hq
    unfold store
    rw [Path.dir_join hp hn.toIsName]
    revert hmade
    rcases t'.makeDirs (Path.clean path) with ⟨t₁, e | ⟨⟩⟩
    · intro hmade
      simpa using hmade
    · intro hmade
      cases hw : t₁.write (Path.join [path, name]) output with
      | error e => simpa [hw] using hmade
      | ok t₂ =>
        have hplace := placeOf_join hp hn.toIsName
        have hget := get?_write hw (by rw [hplace]; exact hn.standing? _) q
        rw [hplace] at hget
        simp only [hw, hget, and_true]
        split_ifs
        · rfl
        · exact hmade

namespace Run

/-! ### Single files -/

/-- The place of a file of the output directory. -/
def Options.place (opts : Options) (name : String) : Place := placeOf opts.outDir ++ [name]

/-- The failure of making the directory of a run, or of writing a file of it. -/
inductive FileFault (dir : String) : Fault → Prop
  | create (front : String) (e : FileFailure) :
    FileFault dir
      (.wrapped .invalidPath ("create output directory " ++ dir) (e.fault "mkdir" front))
  | write (name : String) (e : FileFailure) :
    FileFault dir (.wrapped .invalidPath ("write " ++ Path.join [dir, name])
      (e.fault "open" (Path.join [dir, name])))

theorem FileFault.code?_eq {dir : String} {f : Fault} (h : FileFault dir f) :
    f.code? = some .invalidPath := by
  cases h with
  | create => rfl
  | write => rfl

section WriteFile

variable {dir name : String} {content : ByteArray} {w w' : World} {t : FileTree}

theorem writeFile_run_ok (h : w.files.write (Path.join [dir, name]) content = .ok t) :
    (writeFile dir name content).run w = (.ok (), { w with files := t }) := by
  unfold writeFile
  rw [Effect.run_bind, Effect.onFiles_run_ok h]
  rfl

theorem writeFile_run_error {e : FileFailure}
    (h : w.files.write (Path.join [dir, name]) content = .error e) :
    (writeFile dir name content).run w = (.error (.wrapped .invalidPath
      ("write " ++ Path.join [dir, name]) (e.fault "open" (Path.join [dir, name]))), w) := by
  unfold writeFile
  rw [Effect.run_bind, Effect.onFiles_run_error h]
  rfl

theorem writeFile_eq_ok_iff : (writeFile dir name content).run w = (.ok (), w') ↔
    ∃ t, w.files.write (Path.join [dir, name]) content = .ok t ∧ w' = { w with files := t } := by
  constructor
  · intro h
    cases hw : w.files.write (Path.join [dir, name]) content with
    | error e =>
      rw [writeFile_run_error hw] at h
      cases h
    | ok t =>
      rw [writeFile_run_ok hw] at h
      cases h
      exact ⟨t, rfl, rfl⟩
  · rintro ⟨t, hw, rfl⟩
    exact writeFile_run_ok hw

theorem fileFault_of_writeFile {f : Fault}
    (h : (writeFile dir name content).run w = (.error f, w')) : FileFault dir f := by
  cases hw : w.files.write (Path.join [dir, name]) content with
  | error e =>
    rw [writeFile_run_error hw] at h
    cases h
    exact .write name e
  | ok t =>
    rw [writeFile_run_ok hw] at h
    cases h

variable {opts : Options}

/-- A file that was written is there, and no other place has changed. -/
theorem get?_writeFile (hdir : opts.outDir ≠ "") (hn : IsFileName name)
    (h : (writeFile opts.outDir name content).run w = (.ok (), w')) (q : Place) :
    w'.files.get? q = if q = opts.place name then some (.file content) else w.files.get? q := by
  obtain ⟨t, ht, rfl⟩ := writeFile_eq_ok_iff.1 h
  have hplace := FileTree.placeOf_join hdir hn.toIsName
  have hget := FileTree.get?_write ht (by rw [hplace]; exact hn.standing? _) q
  rw [hplace] at hget
  exact hget

/-- The directory of a file that was written stands. -/
theorem stands_of_writeFile (hdir : opts.outDir ≠ "") (hn : IsFileName name)
    (h : (writeFile opts.outDir name content).run w = (.ok (), w')) :
    w'.files.Stands opts.outDir := by
  obtain ⟨t, ht, rfl⟩ := writeFile_eq_ok_iff.1 h
  have hleads := (FileTree.write_eq_ok_iff.1 ht).1.1
  have hstands := ((FileTree.leads_join_iff hdir hn.toIsName).1 hleads).2.1
  exact hstands.congr fun q _ hq => (FileTree.directory_write_iff ht q).2 hq

end WriteFile

/-! ### The files of one diagram -/

section WriteGraph

variable (r : Render.Renderer) (opts : Options) (g : Dot.Graph) (w : World)

/-- The world in which the image of a diagram is asked for: its source is written. -/
def imageWorld : World := ((writeFile opts.outDir (g.uid ++ ".dot") g.source).run w).2

/-- What the renderer answers when it is asked for the image of a diagram. -/
def imageAnswer : Except Fault ByteArray :=
  ((r.render g.source opts.format).run (imageWorld opts g w)).1

/-- The world in which the image map of a diagram is asked for: its image is written, if there is
one. -/
def mapWorld : World :=
  ((g.renderToFile r (Path.join [opts.outDir, g.uid ++ "." ++ opts.format]) opts.format).run
    (imageWorld opts g w)).2

/-- What the renderer answers when it is asked for the image map of a diagram. -/
def mapAnswer : Except Fault ByteArray :=
  ((r.render g.source "cmapx").run (mapWorld r opts g w)).1

/-- The page fragment of a diagram as it is written. -/
def fragmentFile : ByteArray :=
  g.fragment ((mapAnswer r opts g w).toOption.getD .empty) (g.uid ++ "." ++ opts.format)
    opts.center ++ "\n".toUTF8

end WriteGraph

section WriteGraph

variable {r : Render.Renderer} {opts : Options} {d : Directive} {g : Dot.Graph} {w w' : World}
  {out : Output}

/-- The output of a diagram whose files were written. -/
def outputIn (r : Render.Renderer) (opts : Options) (d : Directive) (g : Dot.Graph) (w : World) :
    Output :=
  { outputOf d g opts.format with
    rendered := ((g.renderToFile r (Path.join [opts.outDir, g.uid ++ "." ++ opts.format])
      opts.format).run (imageWorld opts g w)).1 }

/-- The world in which the page fragment of a diagram is written. -/
def fragmentWorld (r : Render.Renderer) (opts : Options) (g : Dot.Graph) (w : World) : World :=
  ((g.toHtml r (g.uid ++ "." ++ opts.format) opts.center).run (mapWorld r opts g w)).2

theorem told_fragmentWorld (r : Render.Renderer) (opts : Options) (g : Dot.Graph) (w : World) :
    Told [] ((r.render g.source "cmapx").run (mapWorld r opts g w)).2
      (fragmentWorld r opts g w) := by
  obtain ⟨v, hv, htold⟩ := Dot.Graph.toHtml_run (Prod.mk.eta).symm (g.uid ++ "." ++ opts.format)
    opts.center
  have hworld : fragmentWorld r opts g w = v := congrArg Prod.snd hv
  rw [hworld]
  exact htold

/-- The image is what the renderer answered, stored in the world that it left behind. -/
theorem told_mapWorld (r : Render.Renderer) (opts : Options) (d : Directive) (g : Dot.Graph)
    (w : World) : ∃ stored : FileTree × Bool,
    stored = ((r.render g.source opts.format).run (imageWorld opts g w)).2.files.store
      (Path.join [opts.outDir, g.uid ++ "." ++ opts.format]) (imageAnswer r opts g w) ∧
    (outputIn r opts d g w).rendered = stored.2 ∧
    Told [] { ((r.render g.source opts.format).run (imageWorld opts g w)).2 with
      files := stored.1 } (mapWorld r opts g w) := by
  obtain ⟨v, hv, htold⟩ := Dot.Graph.renderToFile_run (Prod.mk.eta).symm
    (Path.join [opts.outDir, g.uid ++ "." ++ opts.format])
  have hworld : mapWorld r opts g w = v := congrArg Prod.snd hv
  rw [hworld]
  exact ⟨_, rfl, congrArg Prod.fst hv, htold⟩

theorem fragmentFile_eq (r : Render.Renderer) (opts : Options) (g : Dot.Graph) (w : World) :
    fragmentFile r opts g w =
      ((g.toHtml r (g.uid ++ "." ++ opts.format) opts.center).run (mapWorld r opts g w)).1 ++
        "\n".toUTF8 := by
  obtain ⟨v, hv, -⟩ := Dot.Graph.toHtml_run (Prod.mk.eta).symm (g.uid ++ "." ++ opts.format)
    opts.center
  rw [hv]
  rfl

theorem writeGraph_eq (r : Render.Renderer) (opts : Options) (d : Directive) (g : Dot.Graph) :
    writeGraph r opts d g =
      (writeFile opts.outDir (g.uid ++ ".dot") g.source).andThen fun _ => (do
        let rendered ← g.renderToFile r (Path.join [opts.outDir, g.uid ++ "." ++ opts.format])
          opts.format
        let fragment ← g.toHtml r (g.uid ++ "." ++ opts.format) opts.center
        (writeFile opts.outDir (g.uid ++ ".html") (fragment ++ "\n".toUTF8)).andThen fun _ =>
          return .ok { outputOf d g opts.format with rendered }) := by
  unfold writeGraph Effect.andThen
  refine bind_congr fun written => ?_
  rcases written with f | ⟨⟩
  · rfl
  · refine bind_congr fun rendered => bind_congr fun fragment => bind_congr fun written => ?_
    rcases written with f | ⟨⟩ <;> rfl

theorem writeGraph_eq_ok_iff : (writeGraph r opts d g).run w = (.ok out, w') ↔
    (writeFile opts.outDir (g.uid ++ ".dot") g.source).run w = (.ok (), imageWorld opts g w) ∧
    out = outputIn r opts d g w ∧
    (writeFile opts.outDir (g.uid ++ ".html") (fragmentFile r opts g w)).run
      (fragmentWorld r opts g w) = (.ok (), w') := by
  rw [writeGraph_eq, Effect.andThen_eq_ok_iff, fragmentFile_eq]
  constructor
  · rintro ⟨⟨⟩, w₁, hs, h⟩
    obtain rfl : imageWorld opts g w = w₁ := congrArg Prod.snd hs
    rw [Effect.run_bind, Effect.run_bind] at h
    obtain ⟨⟨⟩, w₂, ht, h⟩ := Effect.andThen_eq_ok_iff.1 h
    cases h
    exact ⟨hs, rfl, ht⟩
  · rintro ⟨hs, rfl, ht⟩
    refine ⟨(), _, hs, ?_⟩
    rw [Effect.run_bind, Effect.run_bind]
    exact Effect.andThen_eq_ok_iff.2 ⟨(), _, ht, rfl⟩

theorem fileFault_of_writeGraph {f : Fault} (h : (writeGraph r opts d g).run w = (.error f, w')) :
    FileFault opts.outDir f := by
  rw [writeGraph_eq] at h
  rcases Effect.andThen_eq_error_iff.1 h with hs | ⟨⟨⟩, w₁, -, h⟩
  · exact fileFault_of_writeFile hs
  · rw [Effect.run_bind, Effect.run_bind] at h
    rcases Effect.andThen_eq_error_iff.1 h with ht | ⟨⟨⟩, w₂, -, h⟩
    · exact fileFault_of_writeFile ht
    · cases h

/-- The names of the files of a diagram. -/
theorem uid_append_dot (u : String) : u ++ ".dot" = fileName u "dot" := by
  rw [fileName, String.append_assoc]
  rfl

theorem uid_append_html (u : String) : u ++ ".html" = fileName u "html" := by
  rw [fileName, String.append_assoc]
  rfl

variable (hdir : opts.outDir ≠ "") (hf : '/' ∉ opts.format.toList) (hg : Dot.IsUid g.uid.toList)

include hdir hf hg

/-- Where the renderer is asked for the image map, the image is there if it could be had. -/
theorem get?_mapWorld
    (hs : (writeFile opts.outDir (g.uid ++ ".dot") g.source).run w = (.ok (), imageWorld opts g w))
    {p : Place} (hp : r.Spares p) :
    (mapWorld r opts g w).files.get? p =
      if p = opts.place (g.uid ++ "." ++ opts.format) ∧ (outputIn r opts d g w).rendered = true then
        (imageAnswer r opts g w).toOption.map .file
      else (imageWorld opts g w).files.get? p := by
  have hstands := stands_of_writeFile hdir
    (uid_append_dot _ ▸ isFileName_fileName hg (by decide)) hs
  obtain ⟨stored, rfl, hrendered, htold⟩ := told_mapWorld r opts d g w
  have hspared := hp.render g.source opts.format (imageWorld opts g w)
  rw [htold.files, hrendered, ← hspared]
  exact FileTree.get?_store hdir (isFileName_fileName hg hf) hstands hspared _

/-- **What stands where after the files of a diagram were written.** The image overwrites the source,
and the fragment the image, where their names are the same. -/
theorem get?_writeGraph (h : (writeGraph r opts d g).run w = (.ok out, w')) {p : Place}
    (hp : r.Spares p) : w'.files.get? p =
      if p = opts.place out.fragment then some (.file (fragmentFile r opts g w))
      else if p = opts.place out.image ∧ out.rendered = true then
        (imageAnswer r opts g w).toOption.map .file
      else if p = opts.place out.source then some (.file g.source)
      else w.files.get? p := by
  obtain ⟨hs, rfl, ht⟩ := writeGraph_eq_ok_iff.1 h
  rw [get?_writeFile hdir (uid_append_html _ ▸ isFileName_fileName hg (by decide)) ht,
    (told_fragmentWorld r opts g w).files, hp.render, get?_mapWorld (d := d) hdir hf hg hs hp,
    get?_writeFile hdir (uid_append_dot _ ▸ isFileName_fileName hg (by decide)) hs]
  rfl

end WriteGraph

/-! ### The files of all diagrams -/

/-- The names of the files of an output. -/
def Output.files (o : Output) : List String := [o.source, o.image, o.fragment]

/-- The names of the files that were written for an output: not that of an image that could not be
had. -/
def Output.written (o : Output) : List String :=
  o.source :: o.fragment :: if o.rendered then [o.image] else []

theorem Output.mem_files_of_mem_written {o : Output} {name : String} (h : name ∈ o.written) :
    name ∈ o.files := by
  unfold Output.written at h
  unfold Output.files
  split_ifs at h <;> grind

namespace Runner

variable {r : Render.Renderer} {opts : Options} {w w' : World}

/-- The world in which a diagram is rendered, after those before it. -/
def turnOf (r : Render.Renderer) (opts : Options) (before : List (Directive × Dot.Graph))
    (g : Dot.Graph) (w : World) : World :=
  ((Effect.notify (.step g.title)).run ((writeAll r opts before).run w).2).2

theorem files_turnOf_nil (r : Render.Renderer) (opts : Options) (g : Dot.Graph) (w : World) :
    (turnOf r opts [] g w).files = w.files := rfl

theorem writeAll_cons_eq (d : Directive) (g : Dot.Graph) (rest : List (Directive × Dot.Graph)) :
    writeAll r opts ((d, g) :: rest) = (do
      Effect.notify (.step g.title)
      (writeGraph r opts d g).andThen fun out =>
        (writeAll r opts rest).andThen fun more => return .ok (out :: more)) := by
  rw [writeAll]
  unfold Effect.andThen
  refine bind_congr fun _ => bind_congr fun written => ?_
  rcases written with f | out
  · rfl
  · refine bind_congr fun more => ?_
    rcases more with f | more <;> rfl

theorem writeAll_cons_eq_ok_iff {d : Directive} {g : Dot.Graph}
    {rest : List (Directive × Dot.Graph)} {outs : List Output} :
    (writeAll r opts ((d, g) :: rest)).run w = (.ok outs, w') ↔ ∃ out w₁ more,
      (writeGraph r opts d g).run (turnOf r opts [] g w) = (.ok out, w₁) ∧
      (writeAll r opts rest).run w₁ = (.ok more, w') ∧ outs = out :: more := by
  rw [writeAll_cons_eq, Effect.run_bind, Effect.andThen_eq_ok_iff]
  constructor
  · rintro ⟨out, w₁, hg, h⟩
    obtain ⟨more, w₂, hrest, h⟩ := Effect.andThen_eq_ok_iff.1 h
    cases h
    exact ⟨out, w₁, more, hg, hrest, rfl⟩
  · rintro ⟨out, w₁, more, hg, hrest, rfl⟩
    exact ⟨out, w₁, hg, Effect.andThen_eq_ok_iff.2 ⟨more, w', hrest, rfl⟩⟩

theorem fileFault_of_writeAll {graphs : List (Directive × Dot.Graph)} {f : Fault}
    (h : (writeAll r opts graphs).run w = (.error f, w')) : FileFault opts.outDir f := by
  induction graphs generalizing w w' with
  | nil => cases h
  | cons x graphs ih =>
    obtain ⟨d, g⟩ := x
    rw [writeAll_cons_eq, Effect.run_bind] at h
    rcases Effect.andThen_eq_error_iff.1 h with hg | ⟨out, w₁, -, h⟩
    · exact fileFault_of_writeGraph hg
    · rcases Effect.andThen_eq_error_iff.1 h with hrest | ⟨more, w₂, -, h⟩
      · exact ih hrest
      · cases h

/-- A success is one of the first diagrams and then one of the others. -/
theorem writeAll_append_eq_ok {before after : List (Directive × Dot.Graph)} {outs : List Output}
    (h : (writeAll r opts (before ++ after)).run w = (.ok outs, w')) : ∃ done w₁ more,
      (writeAll r opts before).run w = (.ok done, w₁) ∧
      (writeAll r opts after).run w₁ = (.ok more, w') ∧ outs = done ++ more := by
  induction before generalizing w outs with
  | nil => exact ⟨[], w, outs, rfl, h, rfl⟩
  | cons x before ih =>
    obtain ⟨d, g⟩ := x
    obtain ⟨out, w₁, rest, hg, hrest, rfl⟩ := writeAll_cons_eq_ok_iff.1 h
    obtain ⟨done, w₂, more, hdone, hmore, rfl⟩ := ih hrest
    exact ⟨out :: done, w₂, more, writeAll_cons_eq_ok_iff.2 ⟨out, w₁, done, hg, hdone, rfl⟩, hmore,
      rfl⟩

/-- An output apart from whether it has an image. -/
def plain (o : Output) : Output := { o with rendered := false }

/-- What is told about outputs apart from their images depends on no image. -/
theorem map_of_plain {β : Type} {f : Output → β} (hf : ∀ o, f (plain o) = f o)
    {outs outs' : List Output} (h : outs.map plain = outs') : outs.map f = outs'.map f := by
  rw [← h, List.map_map]
  exact List.map_congr_left fun o _ => (hf o).symm

theorem plain_writeAll {graphs : List (Directive × Dot.Graph)} {outs : List Output}
    (h : (writeAll r opts graphs).run w = (.ok outs, w')) :
    outs.map plain = graphs.map fun x => outputOf x.1 x.2 opts.format := by
  induction graphs generalizing w outs with
  | nil =>
    cases h
    rfl
  | cons x graphs ih =>
    obtain ⟨d, g⟩ := x
    obtain ⟨out, w₁, rest, hg, hrest, rfl⟩ := writeAll_cons_eq_ok_iff.1 h
    obtain ⟨-, rfl, -⟩ := writeGraph_eq_ok_iff.1 hg
    rw [List.map_cons, List.map_cons, ih hrest]
    rfl

/-- The turn of one diagram among all. -/
theorem writeAll_at {before after : List (Directive × Dot.Graph)} {d : Directive} {g : Dot.Graph}
    {outs : List Output}
    (h : (writeAll r opts (before ++ (d, g) :: after)).run w = (.ok outs, w')) :
    ∃ done w₁ w₂ more, (writeAll r opts before).run w = (.ok done, w₁) ∧
      (turnOf r opts before g w).files = w₁.files ∧
      (writeGraph r opts d g).run (turnOf r opts before g w) =
        (.ok (outputIn r opts d g (turnOf r opts before g w)), w₂) ∧
      (writeAll r opts after).run w₂ = (.ok more, w') ∧
      outs[before.length]? = some (outputIn r opts d g (turnOf r opts before g w)) := by
  obtain ⟨done, w₁, rest, hdone, hrest, rfl⟩ := writeAll_append_eq_ok h
  obtain ⟨out, w₂, more, hgraph, hmore, rfl⟩ := writeAll_cons_eq_ok_iff.1 hrest
  have hturn : turnOf r opts [] g w₁ = turnOf r opts before g w := by
    unfold turnOf
    rw [hdone]
    rfl
  rw [hturn] at hgraph
  obtain rfl : out = outputIn r opts d g (turnOf r opts before g w) :=
    (writeGraph_eq_ok_iff.1 hgraph).2.1
  have hlen : done.length = before.length := by
    have hplain := congrArg List.length (plain_writeAll hdone)
    rwa [List.length_map, List.length_map] at hplain
  refine ⟨done, w₁, w₂, more, hdone, ?_, hgraph, hmore, by rw [← hlen]; simp⟩
  rw [← hturn, files_turnOf_nil]

/-- Only the files that were written for the diagrams change. -/
theorem get?_writeAll_of_not_mem (hdir : opts.outDir ≠ "") (hf : '/' ∉ opts.format.toList)
    {graphs : List (Directive × Dot.Graph)} (hg : ∀ x ∈ graphs, Dot.IsUid x.2.uid.toList)
    {outs : List Output} (h : (writeAll r opts graphs).run w = (.ok outs, w')) {p : Place}
    (hp : r.Spares p) (hn : ∀ o ∈ outs, ∀ name ∈ o.written, p ≠ opts.place name) :
    w'.files.get? p = w.files.get? p := by
  induction graphs generalizing w outs with
  | nil =>
    cases h
    rfl
  | cons x graphs ih =>
    obtain ⟨d, g⟩ := x
    obtain ⟨out, w₁, rest, hfirst, hrest, rfl⟩ := writeAll_cons_eq_ok_iff.1 h
    have hfiles := hn out List.mem_cons_self
    have himage : ¬ (p = opts.place out.image ∧ out.rendered = true) := by
      rintro ⟨heq, hr⟩
      exact hfiles out.image (by simp [Output.written, hr]) heq
    rw [ih (fun x hx => hg x (List.mem_cons_of_mem _ hx)) hrest fun o ho =>
      hn o (List.mem_cons_of_mem _ ho), get?_writeGraph hdir hf (hg _ List.mem_cons_self) hfirst hp,
      if_neg (hfiles _ (by simp [Output.written])), if_neg himage,
      if_neg (hfiles _ (by simp [Output.written]))]
    rfl

/-! ### The page of all diagrams, and the whole -/

/-- The page that lists all diagrams, as it is written. -/
def pageIn (opts : Options) (outputs : List Output) (w : World) : ByteArray :=
  indexPage (outputs.map fun o =>
    (o, (w.files.read (Path.join [opts.outDir, o.fragment])).toOption.getD .empty))

theorem writeIndex_run (opts : Options) (outputs : List Output) (w : World) :
    (writeIndex opts.outDir outputs).run w =
      (writeFile opts.outDir indexFile (pageIn opts outputs w)).run w := by
  unfold writeIndex
  rw [Effect.run_bind]
  rfl

/-- The world in which the page of all diagrams is written. -/
def pageWorld (w : World) : World :=
  ((Effect.notify (.step indexFile)).run ((Effect.notify (.start .index 1)).run w).2).2

theorem finish_eq (opts : Options) (outputs : List Output) :
    finish opts outputs =
      if opts.noIndex = true then return .ok ()
      else (do
        Effect.notify (.start .index 1)
        Effect.notify (.step indexFile)
        (writeIndex opts.outDir outputs).andThen fun _ => do
          Effect.notify (.finish .index)
          return .ok ()) := by
  unfold finish Effect.andThen
  split_ifs
  · rfl
  · refine bind_congr fun _ => bind_congr fun _ => bind_congr fun written => ?_
    rcases written with f | ⟨⟩ <;> rfl

theorem finish_eq_ok_iff {outputs : List Output} :
    (finish opts outputs).run w = (.ok (), w') ↔
      opts.noIndex = true ∧ w' = w ∨ opts.noIndex = false ∧ ∃ w₁,
        (writeFile opts.outDir indexFile (pageIn opts outputs (pageWorld w))).run (pageWorld w) =
          (.ok (), w₁) ∧ w' = ((Effect.notify (.finish .index)).run w₁).2 := by
  rw [finish_eq]
  cases opts.noIndex with
  | true =>
    constructor
    · intro h
      cases h
      exact Or.inl ⟨rfl, rfl⟩
    · rintro (⟨-, rfl⟩ | ⟨h, -⟩)
      · rfl
      · cases h
  | false =>
    rw [if_neg Bool.false_ne_true, Effect.run_bind, Effect.run_bind, Effect.andThen_eq_ok_iff,
      writeIndex_run]
    constructor
    · rintro ⟨⟨⟩, w₁, hpage, h⟩
      cases h
      exact Or.inr ⟨rfl, w₁, hpage, rfl⟩
    · rintro (⟨h, -⟩ | ⟨-, w₁, hpage, rfl⟩)
      · cases h
      · exact ⟨(), w₁, hpage, rfl⟩

theorem fileFault_of_finish {outputs : List Output} {f : Fault}
    (h : (finish opts outputs).run w = (.error f, w')) : FileFault opts.outDir f := by
  rw [finish_eq] at h
  split_ifs at h
  · cases h
  · rw [Effect.run_bind, Effect.run_bind] at h
    rcases Effect.andThen_eq_error_iff.1 h with hpage | ⟨⟨⟩, w₁, -, h⟩
    · rw [writeIndex_run] at hpage
      exact fileFault_of_writeFile hpage
    · cases h

/-- What a run says at its end. -/
def summary (res : Result) : Log.Record :=
  ⟨.info, "Generated graphs", [("graphs", .number res.outputs.length),
    ("rendered", .number res.rendered), ("skipped", .number res.skipped)]⟩

theorem publish_eq_ok_iff {graphs : List (Directive × Dot.Graph)} {skipped : ℕ} {res : Result} :
    (publish r opts graphs skipped).run w = (.ok res, w') ↔ ∃ w₁ w₂,
      (writeAll r opts graphs).run w = (.ok res.outputs, w₁) ∧ res.skipped = skipped ∧
      (finish opts res.outputs).run ((Effect.notify (.finish .render)).run w₁).2 = (.ok (), w₂) ∧
      w' = ((Effect.log (summary res)).run w₂).2 := by
  rw [publish, Effect.andThen_eq_ok_iff]
  constructor
  · rintro ⟨outputs, w₁, hw, h⟩
    obtain ⟨⟨⟩, w₂, hf, h⟩ := Effect.andThen_eq_ok_iff.1 h
    cases h
    exact ⟨w₁, w₂, hw, rfl, hf, rfl⟩
  · rintro ⟨w₁, w₂, hw, rfl, hf, rfl⟩
    exact ⟨res.outputs, w₁, hw, Effect.andThen_eq_ok_iff.2 ⟨(), w₂, hf, rfl⟩⟩

theorem skipped_publish {graphs : List (Directive × Dot.Graph)} {skipped : ℕ} {res : Result}
    (h : (publish r opts graphs skipped).run w = (.ok res, w')) : res.skipped = skipped := by
  obtain ⟨-, -, -, hskipped, -⟩ := publish_eq_ok_iff.1 h
  exact hskipped

theorem fileFault_of_publish {graphs : List (Directive × Dot.Graph)} {skipped : ℕ} {f : Fault}
    (h : (publish r opts graphs skipped).run w = (.error f, w')) : FileFault opts.outDir f := by
  rcases Effect.andThen_eq_error_iff.1 h with hw | ⟨outputs, w₁, -, h⟩
  · exact fileFault_of_writeAll hw
  · rcases Effect.andThen_eq_error_iff.1 h with hf | ⟨⟨⟩, w₂, -, h⟩
    · exact fileFault_of_finish hf
    · cases h

end Runner
end Run
end ApiDiagrams
