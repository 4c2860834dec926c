import ApiDiagrams.Proofs.Effect
import ApiDiagrams.Proofs.Passes
import ApiDiagrams.Run.Execute

/-!
# What a run plans

Before a run renders anything it finds the targets of its directives and builds the diagrams. What
comes out of that does not depend on the world, and apart from asking for a version it only talks:
it writes to the log and to the progress display.

* `Told`: nothing but the log and the progress display has changed;
* `targetsOf`, `jobsOf`, `drawAll`: what targets are found and what is built;
* `resolveAll_run`, `buildAll_run`: that this is what the stages do;
* `Runner.prepare`: the stages before rendering, and `stages_eq`;
* `prepare_run`: what they come to.
-/

namespace ApiDiagrams

/-! ### One computation after another -/

namespace Effect

variable {α β : Type} {x : Effect (Except Fault α)} {k : α → Effect (Except Fault β)} {w w' : World}

/-- Goes on after a computation unless it failed. -/
def andThen (x : Effect (Except Fault α)) (k : α → Effect (Except Fault β)) :
    Effect (Except Fault β) := do
  match ← x with
  | .error f => return .error f
  | .ok a => k a

theorem andThen_run_ok {a : α} {w₁ : World} (h : x.run w = (.ok a, w₁)) :
    (x.andThen k).run w = (k a).run w₁ := by
  unfold andThen
  rw [run_bind, h]

theorem andThen_run_error {f : Fault} {w₁ : World} (h : x.run w = (.error f, w₁)) :
    (x.andThen k).run w = (.error f, w₁) := by
  unfold andThen
  rw [run_bind, h]
  rfl

theorem andThen_eq_ok_iff {b : β} : (x.andThen k).run w = (.ok b, w') ↔
    ∃ a w₁, x.run w = (.ok a, w₁) ∧ (k a).run w₁ = (.ok b, w') := by
  rcases h : x.run w with ⟨f | a, w₁⟩
  · rw [andThen_run_error h]
    constructor
    · intro h'
      cases h'
    · rintro ⟨a, w₁, h', -⟩
      cases h'
  · rw [andThen_run_ok h]
    constructor
    · exact fun h' => ⟨a, w₁, rfl, h'⟩
    · rintro ⟨a, w₁, h', hk⟩
      cases h'
      exact hk

theorem andThen_eq_error_iff {f : Fault} : (x.andThen k).run w = (.error f, w') ↔
    x.run w = (.error f, w') ∨ ∃ a w₁, x.run w = (.ok a, w₁) ∧ (k a).run w₁ = (.error f, w') := by
  rcases h : x.run w with ⟨f | a, w₁⟩
  · rw [andThen_run_error h]
    constructor
    · intro h'
      cases h'
      exact Or.inl rfl
    · rintro (h' | ⟨a, w₁, h', -⟩)
      · cases h'
        rfl
      · cases h'
  · rw [andThen_run_ok h]
    constructor
    · exact fun h' => Or.inr ⟨a, w₁, rfl, h'⟩
    · rintro (h' | ⟨a, w₁, h', hk⟩)
      · cases h'
      · cases h'
        exact hk

end Effect

/-! ### Talking -/

/-- Nothing but the log has changed, and the progress display was told `ps`. -/
def Told (ps : List Run.Progress) (w w' : World) : Prop :=
  w' = { w with log := w'.log, progress := w.progress ++ ps }

namespace Told

variable {ps qs : List Run.Progress} {w w' w'' : World}

theorem refl (w : World) : Told [] w w := by
  unfold Told
  rw [List.append_nil]

theorem trans (h : Told ps w w') (h' : Told qs w' w'') : Told (ps ++ qs) w w'' := by
  unfold Told at h h' ⊢
  rw [h', h]
  simp

theorem files (h : Told ps w w') : w'.files = w.files := by rw [h]

theorem requests (h : Told ps w w') : w'.requests = w.requests := by rw [h]

theorem progress (h : Told ps w w') : w'.progress = w.progress ++ ps := by rw [h]

theorem withFiles (h : Told ps w w') (t : FileTree) :
    Told ps { w with files := t } { w' with files := t } := by
  unfold Told at h ⊢
  rw [h]

end Told

theorem told_log (r : Log.Record) (w : World) : Told [] w ((Effect.log r).run w).2 := by
  change Told [] w (if r.isShown w.level then { w with log := w.log ++ [r] } else w)
  split_ifs
  · simp [Told]
  · exact Told.refl w

theorem told_report (e : Watch.Event) (w : World) : Told [] w ((Effect.report e).run w).2 := by
  change Told [] w (if w.listening then { w with log := w.log ++ [e.record] } else w)
  split_ifs
  · simp [Told]
  · exact Told.refl w

theorem told_notify (p : Run.Progress) (w : World) : Told [p] w ((Effect.notify p).run w).2 := rfl

theorem told_logAll (rs : List Log.Record) (w : World) :
    Told [] w ((Effect.logAll rs).run w).2 := by
  induction rs generalizing w with
  | nil => exact Told.refl w
  | cons r rs ih => exact (told_log r w).trans (ih _)

namespace Run

/-! ### Targets -/

/-- The entities that targets stand for, after those that were found. -/
def targetsOf (rule : PatternRule) (ix : Index) (done : List EntityId) (targets : List String) :
    Except Fault (List EntityId) :=
  targets.foldlM (fun done t => (resolveTarget rule ix t).map (addNew done)) done

/-- One target is resolved after the other. -/
theorem targetsOf_cons (rule : PatternRule) (ix : Index) (done : List EntityId) (t : String)
    (targets : List String) : targetsOf rule ix done (t :: targets) =
      resolveTarget rule ix t >>= fun new => targetsOf rule ix (addNew done new) targets := by
  rw [targetsOf, List.foldlM_cons]
  cases resolveTarget rule ix t <;> rfl

theorem resolveTargets_run (rule : PatternRule) (ix : Index) (done : List EntityId)
    (targets : List String) (w : World) :
    ((resolveTargets rule ix done targets).run w).1 = targetsOf rule ix done targets ∧
      Told [] w ((resolveTargets rule ix done targets).run w).2 := by
  induction targets generalizing done w with
  | nil => exact ⟨rfl, Told.refl w⟩
  | cons t targets ih =>
    rw [resolveTargets, targetsOf_cons]
    cases resolveTarget rule ix t with
    | error f => exact ⟨rfl, Told.refl w⟩
    | ok found =>
      by_cases hf : found.isEmpty = true
      · simp only [hf, if_true, Effect.run_bind]
        obtain ⟨h1, h2⟩ := ih (addNew done found) ((Effect.log (unmatched t)).run w).2
        exact ⟨h1, (told_log _ w).trans h2⟩
      · simp only [hf]
        exact ih (addNew done found) w

/-! ### Jobs -/

/-- The directive with the entity whose page shows the diagram. -/
def located (ix : Index) (d : Directive) : Directive :=
  if d.current = "" then d else { d with options.current := ix.lookup d.current }

theorem locateCurrent_run (ix : Index) (d : Directive) (w : World) :
    ((Runner.locateCurrent ix d).run w).1 = located ix d ∧
      Told [] w ((Runner.locateCurrent ix d).run w).2 := by
  unfold Runner.locateCurrent located
  by_cases hc : d.current = ""
  · rw [if_pos hc, if_pos hc]
    exact ⟨rfl, Told.refl w⟩
  · rw [if_neg hc, if_neg hc]
    by_cases hl : (ix.lookup d.current).isNone = true
    · simp only [hl, if_true, Effect.run_bind]
      exact ⟨rfl, told_log _ w⟩
    · simp only [hl]
      exact ⟨rfl, Told.refl w⟩

/-- The jobs of directives, and the number of those that have no targets. -/
def jobsOf (rule : PatternRule) (ix : Index) : List Directive → Except Fault (List Job × ℕ)
  | [] => .ok ([], 0)
  | d :: rest => do
    let targets ← targetsOf rule ix [] d.targets
    let (jobs, skipped) ← jobsOf rule ix rest
    return if targets = [] then (jobs, skipped + 1) else (⟨located ix d, targets⟩ :: jobs, skipped)

/-- Some target of the directive stands for an entity. -/
def resolves (rule : PatternRule) (ix : Index) (d : Directive) : Bool :=
  d.targets.any fun t => (ix.select rule t).any (· ≠ [])

theorem resolveTarget_eq_ok_iff {rule : PatternRule} {ix : Index} {t : String}
    {found : List EntityId} :
    resolveTarget rule ix t = .ok found ↔ ix.select rule t = some found := by
  unfold resolveTarget Index.select
  cases ix.lookup t with
  | some i => simp
  | none =>
    dsimp only
    split_ifs <;> simp

theorem addNew_eq_nil_iff {done found : List EntityId} :
    addNew done found = [] ↔ done = [] ∧ found = [] := by
  unfold addNew
  induction found generalizing done with
  | nil => simp
  | cons i found ih =>
    rw [List.foldl_cons, ih]
    split_ifs with h
    · simp only [and_false, iff_false, not_and]
      rintro rfl
      simp at h
    · simp

/-- Nothing is found exactly when no target stands for an entity. -/
theorem targetsOf_eq_nil_iff {rule : PatternRule} {ix : Index} {done found : List EntityId}
    {targets : List String} (h : targetsOf rule ix done targets = .ok found) :
    found = [] ↔
      done = [] ∧ (targets.any fun t => (ix.select rule t).any (· ≠ [])) = false := by
  induction targets generalizing done with
  | nil =>
    cases h
    simp
  | cons t targets ih =>
    rw [targetsOf_cons, bind_eq_ok_iff] at h
    obtain ⟨new, ht, h⟩ := h
    rw [ih h, addNew_eq_nil_iff, List.any_cons, Bool.or_eq_false_iff, resolveTarget_eq_ok_iff.1 ht,
      and_assoc]
    simp

theorem exists_of_targetsOf_eq_error {rule : PatternRule} {ix : Index} {done : List EntityId}
    {targets : List String} {f : Fault} (h : targetsOf rule ix done targets = .error f) :
    ∃ t ∈ targets, resolveTarget rule ix t = .error f := by
  induction targets generalizing done with
  | nil => cases h
  | cons t targets ih =>
    rw [targetsOf_cons] at h
    rcases bind_eq_error_iff.1 h with ht | ⟨new, -, h⟩
    · exact ⟨t, List.mem_cons_self, ht⟩
    · obtain ⟨t', ht', hf⟩ := ih h
      exact ⟨t', List.mem_cons_of_mem _ ht', hf⟩

/-- The jobs are the directives that stand for something, and the others are counted. -/
theorem jobsOf_eq_ok {rule : PatternRule} {ix : Index} {ds : List Directive} {jobs : List Job}
    {skipped : ℕ} (h : jobsOf rule ix ds = .ok (jobs, skipped)) :
    jobs.map Job.directive = (ds.filter (resolves rule ix)).map (located ix) ∧
      jobs.length + skipped = ds.length := by
  induction ds generalizing jobs skipped with
  | nil =>
    cases h
    exact ⟨rfl, rfl⟩
  | cons d ds ih =>
    rw [jobsOf, bind_eq_ok_iff] at h
    obtain ⟨targets, ht, h⟩ := h
    rw [bind_eq_ok_iff] at h
    obtain ⟨⟨more, n⟩, hmore, h⟩ := h
    obtain ⟨hdirs, hcount⟩ := ih hmore
    have hnil : targets = [] ↔ resolves rule ix d = false := by
      rw [targetsOf_eq_nil_iff ht]
      simp [resolves]
    cases hres : resolves rule ix d with
    | false =>
      simp only [hnil.2 hres, if_true] at h
      cases h
      rw [List.filter_cons_of_neg (by rw [hres]; exact Bool.false_ne_true)]
      exact ⟨hdirs, by rw [List.length_cons]; omega⟩
    | true =>
      have hne : targets ≠ [] := fun h0 => by
        rw [hnil.1 h0] at hres
        cases hres
      simp only [hne, if_false] at h
      cases h
      rw [List.filter_cons_of_pos hres, List.map_cons, List.map_cons, hdirs]
      exact ⟨rfl, by simp only [List.length_cons]; omega⟩

theorem exists_of_jobsOf_eq_error {rule : PatternRule} {ix : Index} {ds : List Directive}
    {f : Fault} (h : jobsOf rule ix ds = .error f) :
    ∃ d ∈ ds, ∃ t ∈ d.targets, resolveTarget rule ix t = .error f := by
  induction ds with
  | nil => cases h
  | cons d ds ih =>
    rw [jobsOf] at h
    rcases bind_eq_error_iff.1 h with h | ⟨targets, -, h⟩
    · exact ⟨d, List.mem_cons_self, exists_of_targetsOf_eq_error h⟩
    · rcases bind_eq_error_iff.1 h with h | ⟨more, -, h⟩
      · obtain ⟨d', hd', hf⟩ := ih h
        exact ⟨d', List.mem_cons_of_mem _ hd', hf⟩
      · cases h

/-- A directive without targets is counted. -/
theorem jobsOf_of_nil {rule : PatternRule} {ix : Index} {d : Directive} (ds : List Directive)
    (h : targetsOf rule ix [] d.targets = .ok []) : jobsOf rule ix (d :: ds) =
      (jobsOf rule ix ds).map fun (jobs, skipped) => (jobs, skipped + 1) := by
  rw [jobsOf, h]
  cases jobsOf rule ix ds <;> rfl

/-- A directive with targets is a job. -/
theorem jobsOf_of_cons {rule : PatternRule} {ix : Index} {d : Directive} (ds : List Directive)
    {i : EntityId} {targets : List EntityId}
    (h : targetsOf rule ix [] d.targets = .ok (i :: targets)) : jobsOf rule ix (d :: ds) =
      (jobsOf rule ix ds).map fun (jobs, skipped) =>
        (⟨located ix d, i :: targets⟩ :: jobs, skipped) := by
  rw [jobsOf, h]
  cases jobsOf rule ix ds <;> rfl

/-- The step of the progress display for a directive. -/
def kindStep (d : Directive) : Progress := .step d.kind

/-- Steps go on in front of those of the rest, as long as the rest goes well. -/
theorem steps_of_map {α β γ : Type} (step : α → Progress) (a : α) {rest : List α}
    {e : Except Fault β} {f : β → γ} {ps : List Progress}
    (hps : ∀ x, e = .ok x → ps = rest.map step) (y : γ) (hy : e.map f = .ok y) :
    step a :: ps = (a :: rest).map step := by
  cases e with
  | error _ => cases hy
  | ok x => rw [hps x rfl, List.map_cons]

theorem resolveAll_run (r : Runner) (ix : Index) (ds : List Directive) (w : World) :
    ((r.resolveAll ix ds).run w).1 = jobsOf r.rule ix ds ∧
      ∃ ps, Told ps w ((r.resolveAll ix ds).run w).2 ∧
        ∀ x, jobsOf r.rule ix ds = .ok x → ps = ds.map kindStep := by
  induction ds generalizing w with
  | nil => exact ⟨rfl, [], Told.refl w, fun _ _ => rfl⟩
  | cons d ds ih =>
    have hstep := told_notify (kindStep d) w
    obtain ⟨htargets, htold⟩ :=
      resolveTargets_run r.rule ix [] d.targets ((Effect.notify (kindStep d)).run w).2
    have htold := hstep.trans htold
    rw [Runner.resolveAll, Effect.run_bind, Effect.run_bind]
    simp only [kindStep] at htargets htold
    rw [htargets]
    cases ht : targetsOf r.rule ix [] d.targets with
    | error f =>
      rw [jobsOf, ht]
      exact ⟨rfl, _, htold, fun x hx => by cases hx⟩
    | ok targets =>
      cases targets with
      | nil =>
        have hlog := htold.trans (told_log
          ⟨.warn, "Skipping graph with no targets", [("kind", .text d.kind)]⟩ _)
        obtain ⟨hjobs, ps, hrest, hps⟩ := ih _
        simp only [Effect.run_bind]
        rw [jobsOf_of_nil ds ht]
        exact ⟨congrArg (Except.map _) hjobs, _, hlog.trans hrest, steps_of_map kindStep d hps⟩
      | cons t ts =>
        obtain ⟨hloc, hsaid⟩ := locateCurrent_run ix d _
        obtain ⟨hjobs, ps, hrest, hps⟩ := ih _
        simp only [Effect.run_bind]
        rw [jobsOf_of_cons ds ht, hloc]
        exact ⟨congrArg (Except.map _) hjobs, _, (htold.trans hsaid).trans hrest,
          steps_of_map kindStep d hps⟩

/-! ### Diagrams -/

/-- The diagrams of jobs, built one after the other in one context, captioned and linked. -/
def drawAll (b : Diagram.Builder) (linker : Dot.Linker) :
    Dot.Context → List Job → Except Fault (List (Directive × Dot.Graph))
  | _, [] => .ok []
  | c, job :: rest => do
    let built ← b.build job.directive.kind job.targets job.directive.options c
    let more ← drawAll b linker built.context rest
    let g := { built.graph with caption := job.directive.caption }
    return (job.directive, g.link linker) :: more

theorem buildAll_run (b : Diagram.Builder) (linker : Dot.Linker) (c : Dot.Context)
    (jobs : List Job) (w : World) :
    ((Runner.buildAll b linker c jobs).run w).1 = drawAll b linker c jobs ∧
      ∃ ps, Told ps w ((Runner.buildAll b linker c jobs).run w).2 ∧
        ∀ x, drawAll b linker c jobs = .ok x → ps = jobs.map fun job => kindStep job.directive := by
  induction jobs generalizing c w with
  | nil => exact ⟨rfl, [], Told.refl w, fun _ _ => rfl⟩
  | cons job jobs ih =>
    have hstep := (told_notify (kindStep job.directive) w).trans
      (told_report (.buildStart job.directive.kind job.targets.length) _)
    rw [Runner.buildAll, drawAll, Effect.run_bind, Effect.run_bind]
    simp only [kindStep] at hstep
    cases b.build job.directive.kind job.targets job.directive.options c with
    | error f =>
      simp only [Effect.run_bind]
      exact ⟨rfl, _, hstep.trans (told_report _ _), fun x hx => by cases hx⟩
    | ok built =>
      simp only [Effect.run_bind]
      obtain ⟨hmore, ps, hrest, hps⟩ := ih built.context _
      rw [hmore]
      refine ⟨?_, _, (((hstep.trans (told_logAll _ _)).trans (told_report _ _)).trans
        (told_log _ _)).trans hrest, fun x hx => ?_⟩
      · change (drawAll b linker built.context jobs).map _ = drawAll b linker built.context jobs >>= _
        cases drawAll b linker built.context jobs <;> rfl
      · obtain ⟨_, ⟨⟩, hx⟩ := bind_eq_ok_iff.1 hx
        obtain ⟨y, hy, -⟩ := bind_eq_ok_iff.1 hx
        rw [hps y hy]
        rfl

theorem exists_of_drawAll_eq_error {b : Diagram.Builder} {linker : Dot.Linker} {c : Dot.Context}
    {jobs : List Job} {f : Fault} (h : drawAll b linker c jobs = .error f) :
    ∃ job ∈ jobs, ∃ c, b.build job.directive.kind job.targets job.directive.options c =
      .error f := by
  induction jobs generalizing c with
  | nil => cases h
  | cons job jobs ih =>
    rw [drawAll] at h
    rcases bind_eq_error_iff.1 h with h | ⟨built, -, h⟩
    · exact ⟨job, List.mem_cons_self, c, h⟩
    · rcases bind_eq_error_iff.1 h with h | ⟨more, -, h⟩
      · obtain ⟨job', hjob', c', hf⟩ := ih h
        exact ⟨job', List.mem_cons_of_mem _ hjob', c', hf⟩
      · cases h

/-! ### The stages before rendering -/

namespace Runner

/-- How names become links in a run. -/
def linkerFor (r : Runner) (ix : Index) : Dot.Linker := r.linker.getD (Pages.urlFor ix "")

/-- What a run builds diagrams for when the layout tool is of the given version. -/
def builder (r : Runner) (ix : Index) (version : Render.Version) : Diagram.Builder :=
  { index := ix, linker := some (r.linkerFor ix), version }

/-- The stages before rendering: the diagrams to render, and the number of skipped directives. -/
def prepare (r : Runner) (ix : Index) (directives : List Directive) :
    Effect (Except Fault (List (Directive × Dot.Graph) × ℕ)) := do
  Effect.notify (.start .resolve directives.length)
  (r.resolveAll ix directives).andThen fun (jobs, skipped) => do
    Effect.notify (.finish .resolve)
    let version ← r.renderer.version
    Effect.notify (.start .build jobs.length)
    (buildAll (r.builder ix version) (r.linkerFor ix) {} jobs).andThen fun graphs => do
      Effect.notify (.finish .build)
      Effect.notify (.start .render graphs.length)
      return .ok (graphs, skipped)

/-- The stages from rendering on. -/
def publish (r : Render.Renderer) (opts : Options) (graphs : List (Directive × Dot.Graph))
    (skipped : ℕ) : Effect (Except Fault Result) :=
  (writeAll r opts graphs).andThen fun outputs => do
    Effect.notify (.finish .render)
    (finish opts outputs).andThen fun () => do
      let result : Result := { outputs, skipped }
      Effect.log ⟨.info, "Generated graphs", [("graphs", .number outputs.length),
        ("rendered", .number result.rendered), ("skipped", .number skipped)]⟩
      return .ok result

theorem stages_eq (r : Runner) (ix : Index) (directives : List Directive) (opts : Options) :
    r.stages ix directives opts = (r.prepare ix directives).andThen fun (graphs, skipped) =>
      publish r.renderer opts graphs skipped := by
  unfold stages prepare publish Effect.andThen
  simp only [bind_assoc]
  refine bind_congr fun _ => bind_congr fun resolved => ?_
  rcases resolved with f | ⟨jobs, skipped⟩
  · rw [pure_bind]
  · simp only [bind_assoc]
    refine bind_congr fun _ => bind_congr fun version => bind_congr fun _ =>
      bind_congr fun built => ?_
    rcases built with f | graphs
    · rw [pure_bind]
    · simp only [bind_assoc, pure_bind]
      refine bind_congr fun _ => bind_congr fun _ => bind_congr fun written => ?_
      rcases written with f | outputs
      · rfl
      · refine bind_congr fun _ => bind_congr fun finished => ?_
        rcases finished with f | ⟨⟩ <;> rfl

/-- The runner with another way to lay out graphs. -/
def withRender (r : Runner) (render : ByteArray → String → Effect (Except Fault ByteArray)) :
    Runner :=
  { r with renderer := { r.renderer with render } }

/-- The stages before rendering lay out nothing. -/
theorem prepare_withRender (r : Runner)
    (render : ByteArray → String → Effect (Except Fault ByteArray)) (ix : Index)
    (ds : List Directive) : (r.withRender render).prepare ix ds = r.prepare ix ds := by
  have hresolve : ∀ ds, (r.withRender render).resolveAll ix ds = r.resolveAll ix ds := by
    intro ds
    induction ds with
    | nil => rfl
    | cons d ds ih =>
      simp only [resolveAll, ih]
      rfl
  unfold prepare
  rw [hresolve]
  rfl

/-- The progress of resolving targets. -/
def resolving (ds : List Directive) : List Progress :=
  .start .resolve ds.length :: ds.map kindStep ++ [.finish .resolve]

/-- The progress of building diagrams, up to the start of the next stage. -/
def building (jobs : List Job) : List Progress :=
  .start .build jobs.length :: (jobs.map fun job => kindStep job.directive) ++
    [.finish .build]

/-- What the stages before rendering come to: they stop at the first target or the first diagram
that fails, or have all diagrams. Between targets and diagrams the renderer tells its version. -/
inductive Prepared (r : Runner) (ix : Index) (ds : List Directive) (w : World) :
    Except Fault (List (Directive × Dot.Graph) × ℕ) → World → Prop
  | unresolved {f : Fault} {ps : List Progress} {w' : World} (fails : jobsOf r.rule ix ds = .error f)
      (told : Told ps w w') : Prepared r ix ds w (.error f) w'
  | unbuilt {jobs : List Job} {skipped : ℕ} {f : Fault} {ps : List Progress} {w₁ w' : World}
      (jobs_eq : jobsOf r.rule ix ds = .ok (jobs, skipped)) (told : Told (resolving ds) w w₁)
      (fails : drawAll (r.builder ix (r.renderer.version.run w₁).1) (r.linkerFor ix) {} jobs =
        .error f)
      (told' : Told ps (r.renderer.version.run w₁).2 w') : Prepared r ix ds w (.error f) w'
  | built {jobs : List Job} {skipped : ℕ} {graphs : List (Directive × Dot.Graph)} {w₁ w' : World}
      (jobs_eq : jobsOf r.rule ix ds = .ok (jobs, skipped)) (told : Told (resolving ds) w w₁)
      (draws : drawAll (r.builder ix (r.renderer.version.run w₁).1) (r.linkerFor ix) {} jobs =
        .ok graphs)
      (told' : Told (building jobs ++ [.start .render graphs.length])
        (r.renderer.version.run w₁).2 w') : Prepared r ix ds w (.ok (graphs, skipped)) w'

theorem prepared_run (r : Runner) (ix : Index) (ds : List Directive) (w : World) :
    Prepared r ix ds w ((r.prepare ix ds).run w).1 ((r.prepare ix ds).run w).2 := by
  have hstart := told_notify (.start .resolve ds.length) w
  obtain ⟨hjobs, ps, hresolve, hps⟩ := resolveAll_run r ix ds
    ((Effect.notify (.start .resolve ds.length)).run w).2
  unfold prepare Effect.andThen
  rw [Effect.run_bind, Effect.run_bind, hjobs]
  cases hj : jobsOf r.rule ix ds with
  | error f => exact .unresolved hj (hstart.trans hresolve)
  | ok x =>
    obtain ⟨jobs, skipped⟩ := x
    obtain rfl := hps _ hj
    have hresolved := (hstart.trans hresolve).trans (told_notify (.finish .resolve) _)
    simp only [Effect.run_bind]
    generalize ((Effect.notify (.finish .resolve)).run _).2 = w₁ at hresolved ⊢
    generalize hv : r.renderer.version.run w₁ = v
    have hbuild := told_notify (.start .build jobs.length) v.2
    obtain ⟨hgraphs, qs, hdraw, hqs⟩ := buildAll_run (r.builder ix v.1) (r.linkerFor ix) {} jobs
      ((Effect.notify (.start .build jobs.length)).run v.2).2
    have hbuild := hbuild.trans hdraw
    rw [hgraphs]
    subst hv
    cases hd : drawAll (r.builder ix (r.renderer.version.run w₁).1) (r.linkerFor ix) {} jobs with
    | error f => exact .unbuilt hj hresolved hd hbuild
    | ok graphs =>
      obtain rfl := hqs _ hd
      exact .built hj hresolved hd ((hbuild.trans (told_notify (.finish .build) _)).trans
        (told_notify (.start .render graphs.length) _))

theorem prepared_of_prepare {r : Runner} {ix : Index} {ds : List Directive} {w w' : World}
    {res : Except Fault (List (Directive × Dot.Graph) × ℕ)}
    (h : (r.prepare ix ds).run w = (res, w')) : Prepared r ix ds w res w' := by
  have hrun := r.prepared_run ix ds w
  rw [h] at hrun
  exact hrun

end Runner

end Run
end ApiDiagrams
