import ApiDiagrams.Proofs.Run.Frame

/-!
# What a run tells and asks

The progress display is told about every stage and every step of it, and the renderer is asked twice
for each diagram, for its image and for its image map. Renderers whose requests can be observed are
those that note them down.

* `stageTrace`: a stage as the progress display sees it;
* `Records`: a renderer that notes down what it is asked, and `records_noting`: every renderer can be
  made one;
* `Traces`: what is told and noted down between two worlds;
* `Accounted`: the account of a run;
* `accounted_of_execute`: every successful run has it, and with another renderer it differs only in
  which diagrams have an image.
-/

namespace ApiDiagrams
namespace Run

/-! ### Telling and asking -/

/-- A stage and its steps as the progress display sees them. -/
def stageTrace (stage : Stage) (steps : List String) : List Progress :=
  .start stage steps.length :: steps.map .step ++ [.finish stage]

/-- From one world to another the progress display was told `ps`, and the requests `qs` were noted
down. -/
structure Traces (ps : List Progress) (qs : List LayoutRequest) (w w' : World) : Prop where
  progress : w'.progress = w.progress ++ ps
  requests : w'.requests = w.requests ++ qs

namespace Traces

variable {ps ps' : List Progress} {qs qs' : List LayoutRequest} {w w' w'' : World}

theorem refl (w : World) : Traces [] [] w w :=
  ⟨(List.append_nil _).symm, (List.append_nil _).symm⟩

theorem trans (h : Traces ps qs w w') (h' : Traces ps' qs' w' w'') :
    Traces (ps ++ ps') (qs ++ qs') w w'' := by
  refine ⟨?_, ?_⟩
  · rw [h'.progress, h.progress, List.append_assoc]
  · rw [h'.requests, h.requests, List.append_assoc]

theorem of_told (h : Told ps w w') : Traces ps [] w w' := by
  refine ⟨h.progress, ?_⟩
  rw [h.requests, List.append_nil]

theorem of_writeFile {dir name : String} {content : ByteArray}
    (h : (writeFile dir name content).run w = (.ok (), w')) : Traces [] [] w w' := by
  obtain ⟨t, -, rfl⟩ := writeFile_eq_ok_iff.1 h
  exact ⟨(List.append_nil _).symm, (List.append_nil _).symm⟩

end Traces

/-- The renderer notes down what it is asked, and leaves the progress display and the notes alone
otherwise. -/
structure Records (r : Render.Renderer) (note : ByteArray → String → List LayoutRequest) :
    Prop where
  version : ∀ w, Traces [] [] w (r.version.run w).2
  render : ∀ source format w, Traces [] (note source format) w ((r.render source format).run w).2

/-- The renderer with each request noted down under a number before it is answered. -/
def noting (number : ℕ) (r : Render.Renderer) : Render.Renderer :=
  { r with
    render := fun source format => do
      modify fun w => { w with requests := w.requests ++ [⟨number, format, source⟩] }
      r.render source format }

theorem records_noting {r : Render.Renderer} {note : ByteArray → String → List LayoutRequest}
    (h : Records r note) (number : ℕ) :
    Records (noting number r) fun source format => ⟨number, format, source⟩ :: note source format where
  version := h.version
  render source format w := by
    have hfirst : Traces [] [⟨number, format, source⟩] w
        { w with requests := w.requests ++ [⟨number, format, source⟩] } :=
      ⟨(List.append_nil _).symm, rfl⟩
    exact hfirst.trans (h.render source format _)

/-- A renderer that only answers. -/
theorem records_answering (name : String) (v : Render.Version)
    (answer : ByteArray → String → Except Fault ByteArray) :
    Records { name, version := pure v, render := fun source format => pure (answer source format) }
      fun _ _ => [] where
  version w := Traces.refl w
  render _ _ w := Traces.refl w

/-- A renderer with given answers notes down every request. -/
theorem records_scripted (number : ℕ) (s : Render.Script) :
    Records (.scripted number s) fun source format => [⟨number, format, source⟩] :=
  records_noting (records_answering s.name s.version fun _ format => s.answer format) number

/-! ### The stages from rendering on -/

section Publish

variable {r : Render.Renderer} {note : ByteArray → String → List LayoutRequest} {opts : Options}
  {w w' : World} (hr : Records r note)

include hr

/-- A diagram asks for its image and then for its image map. -/
theorem traces_writeGraph {d : Directive} {g : Dot.Graph} {out : Output}
    (h : (writeGraph r opts d g).run w = (.ok out, w')) :
    Traces [] (note g.source opts.format ++ note g.source "cmapx") w w' := by
  obtain ⟨hs, -, ht⟩ := writeGraph_eq_ok_iff.1 h
  obtain ⟨stored, -, -, htold⟩ := told_mapWorld r opts d g w
  have hanswer := hr.render g.source opts.format (imageWorld opts g w)
  have hstored : Traces [] [] ((r.render g.source opts.format).run (imageWorld opts g w)).2
      (mapWorld r opts g w) := ⟨(Traces.of_told htold).progress, (Traces.of_told htold).requests⟩
  have hmap := hr.render g.source "cmapx" (mapWorld r opts g w)
  have hfragment := Traces.of_told (told_fragmentWorld r opts g w)
  have hall := ((((Traces.of_writeFile hs).trans hanswer).trans hstored).trans hmap).trans
    (hfragment.trans (Traces.of_writeFile ht))
  simpa using hall

theorem traces_writeAll {graphs : List (Directive × Dot.Graph)} {outs : List Output}
    (h : (Runner.writeAll r opts graphs).run w = (.ok outs, w')) :
    Traces (graphs.map fun x => .step x.2.title)
      (graphs.flatMap fun x => note x.2.source opts.format ++ note x.2.source "cmapx") w w' := by
  induction graphs generalizing w outs with
  | nil =>
    cases h
    exact Traces.refl _
  | cons x graphs ih =>
    obtain ⟨out, w₁, rest, hgraph, hrest, -⟩ := Runner.writeAll_cons_eq_ok_iff.1 h
    have hturn := Traces.of_told (told_notify (.step x.2.title) w)
    exact (hturn.trans (traces_writeGraph hr hgraph)).trans (ih hrest)

/-- The stages of rendering and of the page of all diagrams. -/
theorem traces_publish {graphs : List (Directive × Dot.Graph)} {skipped : ℕ} {res : Result}
    (h : (Runner.publish r opts graphs skipped).run w = (.ok res, w')) :
    Traces ((graphs.map fun x => .step x.2.title) ++ [.finish .render] ++
        if opts.noIndex = true then [] else stageTrace .index [indexFile])
      (graphs.flatMap fun x => note x.2.source opts.format ++ note x.2.source "cmapx") w w' := by
  obtain ⟨w₁, w₂, hwrite, -, hfinish, rfl⟩ := Runner.publish_eq_ok_iff.1 h
  have hrender := (traces_writeAll hr hwrite).trans (Traces.of_told (told_notify (.finish .render) w₁))
  have hsaid := Traces.of_told (told_log (Runner.summary res) w₂)
  rcases Runner.finish_eq_ok_iff.1 hfinish with ⟨hno, rfl⟩ | ⟨hno, w₃, hpage, rfl⟩
  · rw [if_pos hno]
    simpa using hrender.trans hsaid
  · have hstart : Traces [.start .index 1, .step indexFile] []
        ((Effect.notify (.finish .render)).run w₁).2
        (Runner.pageWorld ((Effect.notify (.finish .render)).run w₁).2) :=
      (Traces.of_told (told_notify _ _)).trans (Traces.of_told (told_notify _ _))
    have hend := Traces.of_told (told_notify (.finish .index) w₃)
    rw [if_neg (by rw [hno]; exact Bool.false_ne_true)]
    have hall := (((hrender.trans hstart).trans (Traces.of_writeFile hpage)).trans hend).trans hsaid
    simpa [stageTrace] using hall

end Publish

/-! ### The account of a run -/

/-- The account of a successful run whose diagrams are `graphs` and whose renderer notes down what it
is asked. -/
structure Accounted (r : Runner) (ix : Index) (ds : List Directive) (opts : Options)
    (note : ByteArray → String → List LayoutRequest) (w w' : World) (res : Result)
    (graphs : List (Directive × Dot.Graph)) : Prop where
  /-- Every directive has an output or is skipped. -/
  count : res.outputs.length + res.skipped = ds.length
  /-- The outputs are those of the directives that stand for something, in order. -/
  directives : res.outputs.map (·.directive) =
    (ds.filter (resolves r.rule ix)).map (located ix)
  /-- The diagrams are built in one context and linked. -/
  drawn : ∃ jobs version, jobsOf r.rule ix ds = .ok (jobs, res.skipped) ∧
    drawAll (r.builder ix version) (r.linkerFor ix) {} jobs = .ok graphs
  /-- The outputs tell about the diagrams, one by one. -/
  outputs : res.outputs.map Runner.plain =
    graphs.map fun x => outputOf x.1 x.2 opts.complete.format
  /-- The progress display sees each stage with one step per directive or per output. -/
  progress : w'.progress = w.progress ++
    stageTrace .resolve (ds.map (·.kind)) ++
    stageTrace .build (res.outputs.map (·.directive.kind)) ++
    stageTrace .render (res.outputs.map (·.title)) ++
    if opts.noIndex = true then [] else stageTrace .index [indexFile]
  /-- The renderer is asked for the image of each diagram and then for its image map, with the same
  source. -/
  requests : w'.requests = w.requests ++ graphs.flatMap fun x =>
    note x.2.source opts.complete.format ++ note x.2.source "cmapx"

theorem accounted_of_published {r : Runner} {ix : Index} {ds : List Directive} {opts : Options}
    {note : ByteArray → String → List LayoutRequest} (hr : Records r.renderer note)
    {w w₀ w' : World} {t : FileTree} {res : Result} {graphs : List (Directive × Dot.Graph)}
    {skipped : ℕ}
    (prepared : (r.prepare ix ds).run { w with files := t } = (.ok (graphs, skipped), w₀))
    (publishes : (Runner.publish r.renderer opts.complete graphs skipped).run w₀ = (.ok res, w')) :
    Accounted r ix ds opts note w w' res graphs := by
  have htrace := traces_publish hr publishes
  obtain ⟨w₁, w₂, hwrite, rfl, -⟩ := Runner.publish_eq_ok_iff.1 publishes
  have hplain := Runner.plain_writeAll hwrite
  cases Runner.prepared_of_prepare prepared with
  | @built jobs _ _ v _ jobs_eq told draws told' =>
    obtain ⟨hdirs, hcount⟩ := jobsOf_eq_ok jobs_eq
    have hjobs := directives_drawAll draws
    have houts : res.outputs.map (·.directive) = graphs.map Prod.fst := by
      rw [Runner.map_of_plain (fun _ => rfl) hplain, List.map_map]
      rfl
    have htitles : res.outputs.map (·.title) = graphs.map fun x => x.2.title := by
      rw [Runner.map_of_plain (fun _ => rfl) hplain, List.map_map]
      rfl
    have hkinds : res.outputs.map (·.directive.kind) = jobs.map (·.directive.kind) := by
      have h := congrArg (List.map Directive.kind) (houts.trans hjobs)
      rw [List.map_map, List.map_map] at h
      exact h
    have hall := (((Traces.of_told told).trans (hr.version v)).trans (Traces.of_told told')).trans
      htrace
    refine ⟨?_, houts.trans (hjobs.trans hdirs), ⟨jobs, _, jobs_eq, draws⟩, hplain, ?_, ?_⟩
    · have hlen := congrArg List.length (houts.trans hjobs)
      rw [List.length_map, List.length_map] at hlen
      omega
    · rw [hkinds, htitles, hall.progress]
      simp [stageTrace, Runner.resolving, Runner.building, kindStep, Function.comp_def,
        Options.complete]
    · rw [hall.requests]
      simp

/-- **The account of a run.** Every successful run has it. With any other way to lay out graphs that
leaves the output directory alone as well, whatever it answers, the run succeeds too, with the same
account; the outputs differ only in whether there is an image, and there is one for a diagram exactly
when the renderer answers in its turn and the file can be written. -/
theorem accounted_of_execute {r : Runner} {ix : Index} {ds : List Directive} {opts : Options}
    {note : ByteArray → String → List LayoutRequest} {w w' : World} {res : Result}
    (hr : Records r.renderer note) (h : (r.execute ix ds opts).run w = (.ok res, w')) :
    ∃ graphs w₀, Accounted r ix ds opts note w w' res graphs ∧
      (r.prepare ix ds).run { w with files := (w.files.makeDirs opts.complete.outDir).1 } =
        (.ok (graphs, res.skipped), w₀) ∧
      (Careful r.renderer opts.complete.outDir → ∀ render note',
        Records (r.withRender render).renderer note' →
        Careful (r.withRender render).renderer opts.complete.outDir →
        ∃ res' w'', ((r.withRender render).execute ix ds opts).run w = (.ok res', w'') ∧
          Accounted (r.withRender render) ix ds opts note' w w'' res' graphs ∧
          res'.skipped = res.skipped ∧
          res'.outputs.map Runner.plain = res.outputs.map Runner.plain ∧
          w''.progress = w'.progress ∧
          ∀ before d g after, graphs = before ++ (d, g) :: after →
            ∃ o, res'.outputs[before.length]? = some o ∧ (o.rendered = true ↔
              (∃ bytes, imageAnswer (r.withRender render).renderer opts.complete g
                (Runner.turnOf (r.withRender render).renderer opts.complete before g w₀) =
                  .ok bytes) ∧
              w₀.files.Writable (Path.join [opts.complete.outDir,
                fileName g.uid opts.complete.format]))) := by
  have hdir := outDir_complete_ne opts
  cases execute_eq_iff.1 h with
  | @published t graphs skipped _ w₀ _ format checked made prepared publishes =>
    have hf := slash_not_mem_of_checkFormat format
    have haccount := accounted_of_published hr prepared publishes
    have ht : t = (w.files.makeDirs opts.complete.outDir).1 := by rw [made]
    obtain rfl := Runner.skipped_publish publishes
    refine ⟨graphs, w₀, haccount, ht ▸ prepared, fun hc render note' hr' hc' => ?_⟩
    obtain ⟨jobs, version, -, draws⟩ := haccount.drawn
    have hlegal : ∀ x ∈ graphs, Dot.IsUid x.2.uid.toList := fun x hx =>
      (names_drawAll draws).legal _ (List.mem_map_of_mem hx)
    -- what decides about success was settled before the first diagram was rendered
    have hcan := (exists_publish_iff hdir hf hc hlegal res.skipped).1 ⟨res, w', publishes⟩
    obtain ⟨res', w'', publishes'⟩ := (exists_publish_iff hdir hf hc' hlegal res.skipped).2 hcan
    rw [← Runner.prepare_withRender r render] at prepared
    have haccount' := accounted_of_published hr' prepared publishes'
    obtain ⟨w₁, -, hwrite, hskipped, -⟩ := Runner.publish_eq_ok_iff.1 publishes'
    have hplain := haccount'.outputs.trans haccount.outputs.symm
    refine ⟨res', w'', execute_eq_iff.2 (.published format checked made prepared publishes'),
      haccount', hskipped, hplain, ?_, ?_⟩
    · have hkinds : res'.outputs.map (·.directive.kind) = res.outputs.map (·.directive.kind) :=
        (Runner.map_of_plain (fun _ => rfl) hplain).trans
          (Runner.map_of_plain (fun _ => rfl) rfl).symm
      have htitles : res'.outputs.map (·.title) = res.outputs.map (·.title) :=
        (Runner.map_of_plain (fun _ => rfl) hplain).trans
          (Runner.map_of_plain (fun _ => rfl) rfl).symm
      rw [haccount'.progress, haccount.progress, hkinds, htitles]
    · rintro before d g after rfl
      exact rendered_iff hdir hf hc' hlegal hwrite

/-- A renderer that is not there. -/
def absent : ByteArray → String → Effect (Except Fault ByteArray) :=
  fun _ _ => pure (.error (.coded .toolUnavailable "dot not found"))

theorem accounted_of_module_run : ∃ res graphs,
    Accounted threeFormats oneModule [moduleImports]
      { outDir := "out", format := "png", noIndex := true }
      (fun source format => [⟨0, format, source⟩]) {} (moduleRun "png").2 res graphs ∧
    ∃ res' w'', ((threeFormats.withRender absent).execute oneModule [moduleImports]
        { outDir := "out", format := "png", noIndex := true }).run {} = (.ok res', w'') ∧
      w''.progress = (moduleRun "png").2.progress := by
  obtain ⟨res, hres⟩ := exists_module_run
  have hrun := eq_of_fst_eq hres
  have hrecords : Records threeFormats.renderer fun source format => [⟨0, format, source⟩] :=
    records_scripted 0 _
  obtain ⟨graphs, w₀, haccount, -, hother⟩ := accounted_of_execute hrecords hrun
  have hcareful : Careful threeFormats.renderer "out" := fun p _ => ⟨fun _ => rfl, fun _ _ _ => rfl⟩
  have habsent : Records (threeFormats.withRender absent).renderer fun _ _ => [] :=
    records_answering _ _ fun _ _ => .error (.coded .toolUnavailable "dot not found")
  obtain ⟨res', w'', hrun', -, -, -, hprogress, -⟩ :=
    hother hcareful absent _ habsent fun p _ => ⟨fun _ => rfl, fun _ _ _ => rfl⟩
  exact ⟨res, graphs, haccount, res', w'', hrun', hprogress⟩

end Run
end ApiDiagrams
