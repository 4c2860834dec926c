import ApiDiagrams.Proofs.Run.Outcome

/-!
# The files that a run leaves behind

The three files of a diagram are named after it, with different endings, unless the format is the
ending of one of the other two: then the image takes the place of the source, or the fragment that of
the image. Files of different diagrams never meet.

* `nodup_files_iff`: when all names differ;
* `Holds`: what the files of one diagram hold at the end;
* `Filed`: what a run leaves behind;
* `filed_of_execute`: every successful run does so.
-/

namespace ApiDiagrams
namespace Run

open FileTree (placeOf)

/-! ### Names -/

theorem isUid_index : Dot.IsUid "index".toList where
  ne_nil := by decide
  chars := List.all_eq_true.1 (by decide : "index".toList.all Dot.isUidChar = true)
  head c hc := by
    cases hc
    rfl

theorem indexFile_eq : indexFile = fileName "index" "html" := by decide

theorem isFileName_indexFile : IsFileName indexFile := by
  rw [indexFile_eq]
  exact isFileName_fileName isUid_index (by decide)

theorem files_outputOf (d : Directive) (g : Dot.Graph) (format : String) :
    (outputOf d g format).files =
      [fileName g.uid "dot", fileName g.uid format, fileName g.uid "html"] := by
  rw [← uid_append_dot, ← uid_append_html]
  rfl

theorem exists_ending_of_mem_files {d : Directive} {g : Dot.Graph} {format name : String}
    (h : name ∈ (outputOf d g format).files) :
    ∃ ending, name = fileName g.uid ending ∧ (ending = "dot" ∨ ending = format ∨ ending = "html") := by
  rw [files_outputOf] at h
  simp only [List.mem_cons, List.not_mem_nil, or_false] at h
  rcases h with rfl | rfl | rfl
  · exact ⟨_, rfl, Or.inl rfl⟩
  · exact ⟨_, rfl, Or.inr (Or.inl rfl)⟩
  · exact ⟨_, rfl, Or.inr (Or.inr rfl)⟩

theorem isFileName_of_mem_files {d : Directive} {g : Dot.Graph} (hg : Dot.IsUid g.uid.toList)
    {format name : String} (hf : '/' ∉ format.toList) (h : name ∈ (outputOf d g format).files) :
    IsFileName name := by
  obtain ⟨ending, rfl, hending⟩ := exists_ending_of_mem_files h
  refine isFileName_fileName hg ?_
  rcases hending with rfl | rfl | rfl
  · decide
  · exact hf
  · decide

/-- No file of a diagram is the page of all diagrams: there is an underscore in its name. -/
theorem ne_indexFile_of_mem_files {graphs : List (Directive × Dot.Graph)}
    (hn : Names (graphs.map Prod.snd)) {x : Directive × Dot.Graph} (hx : x ∈ graphs)
    {format name : String} (h : name ∈ (outputOf x.1 x.2 format).files) : name ≠ indexFile := by
  intro heq
  obtain ⟨ending, rfl, -⟩ := exists_ending_of_mem_files h
  have hmem : x.2 ∈ graphs.map Prod.snd := List.mem_map_of_mem hx
  rw [indexFile_eq] at heq
  have huid := (fileName_injective (hn.legal _ hmem) isUid_index heq).1
  have hscore := hn.underscore _ hmem
  rw [huid] at hscore
  exact absurd hscore (by decide)

/-- **The names of all files differ exactly when the format is none of the two endings in use.** -/
theorem nodup_files_iff {graphs : List (Directive × Dot.Graph)} (format : String)
    (hn : Names (graphs.map Prod.snd)) :
    (indexFile :: graphs.flatMap fun x => (outputOf x.1 x.2 format).files).Nodup ↔
      graphs = [] ∨ format ≠ "dot" ∧ format ≠ "html" := by
  have hlegal : ∀ x ∈ graphs, Dot.IsUid x.2.uid.toList := fun x hx =>
    hn.legal _ (List.mem_map_of_mem hx)
  rw [List.nodup_cons, List.nodup_flatMap]
  constructor
  · rintro ⟨-, hfiles, -⟩
    cases graphs with
    | nil => exact Or.inl rfl
    | cons x graphs =>
      have hx := hfiles x List.mem_cons_self
      rw [files_outputOf] at hx
      right
      constructor
      · rintro rfl
        simp at hx
      · rintro rfl
        simp at hx
  · intro hformat
    refine ⟨?_, fun x hx => ?_, ?_⟩
    · intro hmem
      obtain ⟨x, hx, hname⟩ := List.mem_flatMap.1 hmem
      exact ne_indexFile_of_mem_files hn hx hname rfl
    · obtain ⟨hdot, hhtml⟩ := hformat.resolve_left (List.ne_nil_of_mem hx)
      have hne : ∀ e e', e ≠ e' → fileName x.2.uid e ≠ fileName x.2.uid e' := fun e e' he heq =>
        he (fileName_injective (hlegal x hx) (hlegal x hx) heq).2
      rw [files_outputOf]
      simp [hne _ _ hdot.symm, hne _ _ hhtml, hne "dot" "html" (by decide)]
    · have hdistinct := hn.distinct
      rw [List.map_map, List.Nodup, List.pairwise_map] at hdistinct
      refine hdistinct.imp_of_mem fun {x y} hx hy hxy name hname hname' => ?_
      obtain ⟨e, rfl, -⟩ := exists_ending_of_mem_files hname
      obtain ⟨e', heq, -⟩ := exists_ending_of_mem_files hname'
      exact hxy (fileName_injective (hlegal x hx) (hlegal y hy) heq).1

/-! ### Outputs against diagrams -/

theorem place_injective (opts : Options) : Function.Injective opts.place := by
  intro a b h
  unfold Options.place at h
  simpa using h

section Outputs

variable {opts : Options} {graphs : List (Directive × Dot.Graph)} {outs : List Output}
  (hplain : outs.map Runner.plain = graphs.map fun x => outputOf x.1 x.2 opts.format)

include hplain

/-- Every output comes from a diagram. -/
theorem exists_graph_of_mem {o : Output} (ho : o ∈ outs) :
    ∃ x ∈ graphs, o.files = (outputOf x.1 x.2 opts.format).files := by
  have hmem := List.mem_map_of_mem (f := Runner.plain) ho
  rw [hplain] at hmem
  obtain ⟨x, hx, heq⟩ := List.mem_map.1 hmem
  exact ⟨x, hx, by rw [heq]; rfl⟩

theorem placeOf_of_mem_files (hdir : opts.outDir ≠ "") (hf : '/' ∉ opts.format.toList)
    (hg : ∀ x ∈ graphs, Dot.IsUid x.2.uid.toList) {o : Output} (ho : o ∈ outs) {name : String}
    (hname : name ∈ indexFile :: o.files) :
    placeOf (Path.join [opts.outDir, name]) = placeOf opts.outDir ++ [name] := by
  refine FileTree.placeOf_join hdir (IsFileName.toIsName ?_)
  rcases List.mem_cons.1 hname with rfl | hname
  · exact isFileName_indexFile
  · obtain ⟨x, hx, hfiles⟩ := exists_graph_of_mem hplain ho
    rw [hfiles] at hname
    exact isFileName_of_mem_files (hg x hx) hf hname

/-- The files of all outputs and the page of all diagrams are at different places exactly when there is
no output or the format is none of the two endings in use. -/
theorem nodup_places_iff (hn : Names (graphs.map Prod.snd)) :
    ((indexFile :: outs.flatMap Output.files).map opts.place).Nodup ↔
      outs = [] ∨ opts.format ≠ "dot" ∧ opts.format ≠ "html" := by
  have hfiles : outs.flatMap Output.files =
      graphs.flatMap fun x => (outputOf x.1 x.2 opts.format).files := by
    have hmap := congrArg (List.flatMap Output.files) hplain
    rw [List.flatMap_map, List.flatMap_map] at hmap
    exact hmap
  have hempty : outs = [] ↔ graphs = [] := by
    rw [← List.map_eq_nil_iff (f := Runner.plain), hplain, List.map_eq_nil_iff]
  rw [List.nodup_map_iff (place_injective _), hfiles, hempty]
  exact nodup_files_iff _ hn

end Outputs

/-! ### The end of a run -/

section Publish

variable {r : Render.Renderer} {opts : Options} {w w' : World}

theorem get?_finish (hdir : opts.outDir ≠ "") {outputs : List Output}
    (h : (Runner.finish opts outputs).run w = (.ok (), w')) {p : Place}
    (hp : opts.noIndex = true ∨ p ≠ opts.place indexFile) :
    w'.files.get? p = w.files.get? p := by
  rcases Runner.finish_eq_ok_iff.1 h with ⟨-, rfl⟩ | ⟨hindex, w₁, hpage, rfl⟩
  · rfl
  · have hne : p ≠ opts.place indexFile := hp.resolve_left (by rw [hindex]; exact Bool.false_ne_true)
    change w₁.files.get? p = _
    rw [get?_writeFile hdir isFileName_indexFile hpage, if_neg hne]
    rfl

/-- After the files of the diagrams, only the page of all diagrams is written. -/
theorem get?_publish (hdir : opts.outDir ≠ "") {graphs : List (Directive × Dot.Graph)}
    {skipped : ℕ} {res : Result} (h : (Runner.publish r opts graphs skipped).run w = (.ok res, w')) :
    ∃ w₁, (Runner.writeAll r opts graphs).run w = (.ok res.outputs, w₁) ∧
      ∀ p, opts.noIndex = true ∨ p ≠ opts.place indexFile →
        w'.files.get? p = w₁.files.get? p := by
  obtain ⟨w₁, w₂, hwrite, -, hfinish, rfl⟩ := Runner.publish_eq_ok_iff.1 h
  refine ⟨w₁, hwrite, fun p hp => ?_⟩
  rw [(told_log _ w₂).files, get?_finish hdir hfinish hp]
  rfl

/-- A diagram's files hold what they should at the end of a run whose last world has the files `t`,
when the diagram was rendered in the world `v`, and wherever the renderer leaves them alone. -/
structure Holds (r : Render.Renderer) (opts : Options) (g : Dot.Graph) (v : World) (t : FileTree)
    (o : Output) : Prop where
  /-- The source is there, unless an image of the same name took its place. -/
  source : r.Spares (opts.place o.source) → (opts.format = "dot" → o.rendered = false) →
    t.get? (opts.place o.source) = some (.file g.source)
  /-- The image is what the renderer answered, unless the fragment of the same name took its
  place. -/
  image : r.Spares (opts.place o.image) → opts.format ≠ "html" → o.rendered = true →
    ∃ bytes, imageAnswer r opts g v = .ok bytes ∧
      t.get? (opts.place o.image) = some (.file bytes)
  fragment : r.Spares (opts.place o.fragment) →
    t.get? (opts.place o.fragment) = some (.file (fragmentFile r opts g v))

/-- An output with an image was answered. -/
theorem exists_answer_of_rendered {d : Directive} {g : Dot.Graph}
    (h : (outputIn r opts d g w).rendered = true) : ∃ bytes, imageAnswer r opts g w = .ok bytes := by
  obtain ⟨stored, rfl, hrendered, -⟩ := told_mapWorld r opts d g w
  rw [hrendered] at h
  cases ha : imageAnswer r opts g w with
  | error f =>
    rw [ha] at h
    cases h
  | ok bytes => exact ⟨bytes, rfl⟩

/-- The files of one diagram right after they were written. -/
theorem holds_writeGraph (hdir : opts.outDir ≠ "") (hf : '/' ∉ opts.format.toList)
    {d : Directive} {g : Dot.Graph} (hg : Dot.IsUid g.uid.toList) {out : Output}
    (h : (writeGraph r opts d g).run w = (.ok out, w')) : Holds r opts g w w'.files out := by
  have hget := fun p hp => get?_writeGraph hdir hf hg h (p := p) hp
  obtain ⟨-, rfl, -⟩ := writeGraph_eq_ok_iff.1 h
  have hne : ∀ e e', e ≠ e' → opts.place (fileName g.uid e) ≠ opts.place (fileName g.uid e') :=
    fun e e' he heq => he (fileName_injective hg hg (place_injective opts heq)).2
  have hsource : (outputIn r opts d g w).source = fileName g.uid "dot" := uid_append_dot _
  have himage : (outputIn r opts d g w).image = fileName g.uid opts.format := rfl
  have hfragment : (outputIn r opts d g w).fragment = fileName g.uid "html" := uid_append_html _
  rw [hsource, himage, hfragment] at hget
  constructor
  · intro hp hover
    rw [hsource] at hp ⊢
    rw [hget _ hp, if_neg (hne _ _ (by decide)), if_neg, if_pos rfl]
    rintro ⟨heq, hr⟩
    have hformat : opts.format = "dot" := by
      by_contra hformat
      exact hne _ _ (Ne.symm hformat) heq
    rw [hover hformat] at hr
    cases hr
  · intro hp hhtml hr
    rw [himage] at hp ⊢
    obtain ⟨bytes, hbytes⟩ := exists_answer_of_rendered hr
    refine ⟨bytes, hbytes, ?_⟩
    rw [hget _ hp, if_neg (hne _ _ hhtml), if_pos ⟨rfl, hr⟩, hbytes]
    rfl
  · intro hp
    rw [hfragment] at hp ⊢
    rw [hget _ hp, if_pos rfl]

theorem Holds.congr {g : Dot.Graph} {t t' : FileTree} {o : Output} (h : Holds r opts g w t o)
    (ht : ∀ name ∈ o.files, r.Spares (opts.place name) →
      t'.get? (opts.place name) = t.get? (opts.place name)) : Holds r opts g w t' o := by
  refine ⟨fun hp => ?_, fun hp => ?_, fun hp => ?_⟩
  · rw [ht _ (by simp [Output.files]) hp]
    exact h.source hp
  · rw [ht _ (by simp [Output.files]) hp]
    exact h.image hp
  · rw [ht _ (by simp [Output.files]) hp]
    exact h.fragment hp

/-- Diagrams that are written later leave the files of a diagram alone. -/
theorem holds_writeAll (hdir : opts.outDir ≠ "") (hf : '/' ∉ opts.format.toList)
    {before after : List (Directive × Dot.Graph)} {d : Directive} {g : Dot.Graph}
    (hn : Names ((before ++ (d, g) :: after).map Prod.snd)) {outs : List Output}
    (h : (Runner.writeAll r opts (before ++ (d, g) :: after)).run w = (.ok outs, w')) :
    outs[before.length]? = some (outputIn r opts d g (Runner.turnOf r opts before g w)) ∧
      Holds r opts g (Runner.turnOf r opts before g w) w'.files
        (outputIn r opts d g (Runner.turnOf r opts before g w)) := by
  have hlegal : ∀ x ∈ before ++ (d, g) :: after, Dot.IsUid x.2.uid.toList := fun x hx =>
    hn.legal _ (List.mem_map_of_mem hx)
  have hg : Dot.IsUid g.uid.toList := hlegal (d, g) (by simp)
  have hfresh : ∀ x ∈ after, g.uid ≠ x.2.uid := by
    have hdistinct := hn.distinct
    rw [List.map_map, List.map_append, List.map_cons] at hdistinct
    have hcons := (List.nodup_append.1 hdistinct).2.1
    intro x hx heq
    refine (List.nodup_cons.1 hcons).1 (List.mem_map.2 ⟨x, hx, ?_⟩)
    exact heq.symm
  obtain ⟨done, w₁, w₂, more, -, -, hfirst, hmore, hout⟩ := Runner.writeAll_at h
  refine ⟨hout, (holds_writeGraph hdir hf hg hfirst).congr fun name hname hp => ?_⟩
  have hlater : ∀ x ∈ after, Dot.IsUid x.2.uid.toList := fun x hx =>
    hlegal x (List.mem_append_right _ (List.mem_cons_of_mem _ hx))
  refine Runner.get?_writeAll_of_not_mem hdir hf hlater hmore hp fun o ho name' hname' heq => ?_
  obtain ⟨x, hx, hfiles⟩ := exists_graph_of_mem (Runner.plain_writeAll hmore) ho
  have hname' := Output.mem_files_of_mem_written hname'
  rw [hfiles] at hname'
  obtain ⟨e, rfl, -⟩ := exists_ending_of_mem_files (d := d) (g := g) hname
  obtain ⟨e', rfl, -⟩ := exists_ending_of_mem_files hname'
  exact hfresh x hx (fileName_injective hg (hlater x hx) (place_injective opts heq)).1

end Publish

/-! ### Runs -/

/-- What a successful run from `w` to `w'` leaves behind, when its diagrams are `graphs` and it
starts to render them in the world `w₀`. -/
structure Filed (r : Runner) (ix : Index) (ds : List Directive) (opts : Options) (w w' : World)
    (res : Result) (graphs : List (Directive × Dot.Graph)) (w₀ : World) : Prop where
  /-- The diagrams are those of the directives that stand for something, built in one context. -/
  drawn : ∃ jobs version, jobsOf r.rule ix ds = .ok (jobs, res.skipped) ∧
    drawAll (r.builder ix version) (r.linkerFor ix) {} jobs = .ok graphs
  /-- They are rendered after the output directory was made and all diagrams were built. -/
  started : (r.prepare ix ds).run
    { w with files := (w.files.makeDirs opts.complete.outDir).1 } = (.ok (graphs, res.skipped), w₀)
  /-- The outputs tell about the diagrams, one by one. -/
  outputs : res.outputs.map Runner.plain =
    graphs.map fun x => outputOf x.1 x.2 opts.complete.format
  /-- The files of each diagram hold what they should, as far as no other file of the same diagram
  has the same name. -/
  holds : ∀ before d g after, graphs = before ++ (d, g) :: after →
    ∃ o, res.outputs[before.length]? = some o ∧
      Holds r.renderer opts.complete g (Runner.turnOf r.renderer opts.complete before g w₀) w'.files
        o
  /-- All files lie directly in the output directory. -/
  inside : ∀ o ∈ res.outputs, ∀ name ∈ indexFile :: o.files,
    placeOf (Path.join [opts.complete.outDir, name]) = placeOf opts.complete.outDir ++ [name]
  /-- No two files, of one diagram or of different ones, and not the page of all diagrams, are the
  same, exactly when there is no diagram or the format is not an ending of the other files. -/
  distinct : ((indexFile :: res.outputs.flatMap Output.files).map opts.complete.place).Nodup ↔
    res.outputs = [] ∨ opts.complete.format ≠ "dot" ∧ opts.complete.format ≠ "html"
  /-- Nothing else has changed, but that the output directory and those above it were made. -/
  others : ∀ p, r.renderer.Spares p → opts.noIndex = true ∨ p ≠ opts.complete.place indexFile →
    (∀ o ∈ res.outputs, ∀ name ∈ o.written, p ≠ opts.complete.place name) →
      w'.files.get? p = w.files.get? p ∨
        w.files.get? p = none ∧ w'.files.get? p = some .directory ∧
          ∃ front ∈ Path.fronts opts.complete.outDir, p = placeOf front

/-- **The files that a run leaves behind.** -/
theorem filed_of_execute {r : Runner} {ix : Index} {ds : List Directive} {opts : Options}
    {w w' : World} {res : Result} (h : (r.execute ix ds opts).run w = (.ok res, w')) :
    ∃ graphs w₀, Filed r ix ds opts w w' res graphs w₀ := by
  have hdir := outDir_complete_ne opts
  cases execute_eq_iff.1 h with
  | @published t graphs skipped _ w₀ _ format checked made prepared publishes =>
    have hf := slash_not_mem_of_checkFormat format
    obtain ⟨w₁, hwrite, hpage⟩ := get?_publish hdir publishes
    obtain rfl := Runner.skipped_publish publishes
    have ht : t = (w.files.makeDirs opts.complete.outDir).1 := by rw [made]
    cases Runner.prepared_of_prepare prepared with
    | @built jobs _ _ w₂ _ jobs_eq told draws told' =>
      have hn := names_drawAll draws
      have hplain := Runner.plain_writeAll hwrite
      have hlegal : ∀ x ∈ graphs, Dot.IsUid x.2.uid.toList := fun x hx =>
        hn.legal _ (List.mem_map_of_mem hx)
      refine ⟨graphs, w₀, ⟨jobs, _, jobs_eq, draws⟩, ht ▸ prepared, hplain, ?_, ?_, ?_, ?_⟩
      · rintro before d g after rfl
        obtain ⟨hout, hholds⟩ := holds_writeAll hdir hf hn hwrite
        refine ⟨_, hout, hholds.congr fun name hname _ => hpage _ (Or.inr fun heq => ?_)⟩
        have hmem : (d, g) ∈ before ++ (d, g) :: after := by simp
        exact ne_indexFile_of_mem_files hn hmem hname (place_injective _ heq)
      · exact fun o ho name hname => placeOf_of_mem_files hplain hdir hf hlegal ho hname
      · exact nodup_places_iff hplain hn
      · intro p hp hindex hfiles
        rw [hpage p hindex, Runner.get?_writeAll_of_not_mem hdir hf hlegal hwrite hp hfiles,
          get?_prepare prepared hp.version]
        have hmade := FileTree.made_makeDirs w.files opts.complete.outDir p
        rw [← ht] at hmade
        exact hmade

/-- An index of one module. -/
def oneModule : Index := Index.empty.add { name := ⟨["m"]⟩, kind := .module }

/-- A runner whose renderer knows three formats. -/
def threeFormats : Runner where
  renderer := .scripted 0
    { outputs := [("png", "LAID OUT".toUTF8), ("dot", "LAID OUT".toUTF8), ("cmapx", "<map/>".toUTF8)] }

/-- A directive for the import graph of the module. -/
def moduleImports : Directive := { kind := "import-graph", targets := ["m"] }

/-- The run of that directive in a format. -/
def moduleRun (format : String) : Except Fault Result × World :=
  (threeFormats.execute oneModule [moduleImports] { outDir := "out", format, noIndex := true }).run {}

theorem exists_module_run : ∃ res, (moduleRun "png").1 = .ok res := by
  have hok : (moduleRun "png").1.isOk = true := by decide +kernel
  cases h : (moduleRun "png").1 with
  | error f =>
    rw [h] at hok
    cases hok
  | ok res => exact ⟨res, rfl⟩

theorem filed_of_module_run : ∃ res, (moduleRun "png").1 = .ok res ∧ ∃ graphs w₀,
    Filed threeFormats oneModule [moduleImports] { outDir := "out", format := "png", noIndex := true }
      {} (moduleRun "png").2 res graphs w₀ := by
  obtain ⟨res, hres⟩ := exists_module_run
  have hrun := eq_of_fst_eq hres
  exact ⟨res, hres, filed_of_execute hrun⟩

theorem head?_text (g : Dot.Graph) : g.text.toList.head? = some 'd' := by
  unfold Dot.Graph.text
  simp only [String.toList_append, List.append_assoc]
  rfl

/-- In the format of sources, the image takes the place of the source. -/
theorem source_lost_to_image :
    (moduleRun "dot").1.toOption.map (fun res => res.outputs.map fun o =>
      (o.source, o.image, o.rendered)) = some [("import_graph.dot", "import_graph.dot", true)] ∧
    ∀ g : Dot.Graph,
      (moduleRun "dot").2.files.get? ["out", "import_graph.dot"] ≠ some (.file g.source) := by
  have hfile : (moduleRun "dot").2.files.get? ["out", "import_graph.dot"] =
      some (.file "LAID OUT".toUTF8) := by decide +kernel
  refine ⟨by decide +kernel, fun g hg => ?_⟩
  have hinj : ∀ a b : String, a.toUTF8 = b.toUTF8 → a = b := fun a b h =>
    String.toByteArray_inj.1 h
  have htext := hinj "LAID OUT" g.text (FileEntry.file.inj (Option.some.inj (hfile.symm.trans hg)))
  -- a source starts with another letter
  have hhead := head?_text g
  rw [← htext] at hhead
  exact absurd hhead (by decide)

end Run
end ApiDiagrams
