import ApiDiagrams.Proofs.Run.Planning

/-!
# The course of a run

A run goes through its stages one after the other and may stop in each of them. What the progress
display is told depends on that alone: every stage that is over has made the steps that it
announced, and a stage in which the run stops has made some of them.

* `Effect.Tells`: what a computation tells the progress display, whatever the world is;
* `Effect.Silent`: a computation that tells it nothing; `Render.Renderer.Quiet`: such a renderer;
* `Course`: the messages of a run through given stages;
* `tells_execute`: every run tells a course, and a whole one exactly when it succeeds.
-/

namespace ApiDiagrams

/-! ### Telling the progress display -/

namespace Effect

variable {α β : Type}

/-- Whatever the world is, the progress display is told messages that `P` allows together with the
result. -/
def Tells (x : Effect α) (P : α → List Run.Progress → Prop) : Prop :=
  ∀ w, ∃ ps, (x.run w).2.progress = w.progress ++ ps ∧ P (x.run w).1 ps

/-- The progress display is told nothing. -/
def Silent (x : Effect α) : Prop := ∀ w, (x.run w).2.progress = w.progress

section Tells

variable {x : Effect α} {f : α → Effect β} {P : α → List Run.Progress → Prop}
  {Q : β → List Run.Progress → Prop}

theorem Tells.mono (h : Tells x P) {P' : α → List Run.Progress → Prop}
    (himp : ∀ a ps, P a ps → P' a ps) : Tells x P' := by
  intro w
  obtain ⟨ps, hps, hP⟩ := h w
  exact ⟨ps, hps, himp _ _ hP⟩

theorem tells_pure {a : α} (h : P a []) : Tells (pure a) P :=
  fun _ => ⟨[], (List.append_nil _).symm, h⟩

/-- The result of what came before is passed on. -/
theorem tells_pure_append {a : α} {ps : List Run.Progress} (h : P a ps) :
    Tells (pure a) fun b qs => P b (ps ++ qs) :=
  tells_pure (by rwa [List.append_nil])

/-- What comes second is told after what comes first. -/
theorem Tells.bind (hx : Tells x P)
    (hf : ∀ a ps, P a ps → Tells (f a) fun b qs => Q b (ps ++ qs)) : Tells (x >>= f) Q := by
  intro w
  obtain ⟨ps, hps, hP⟩ := hx w
  obtain ⟨qs, hqs, hQ⟩ := hf _ _ hP (x.run w).2
  refine ⟨ps ++ qs, ?_, hQ⟩
  rw [run_bind, hqs, hps, List.append_assoc]

theorem Silent.tells_bind (hx : Silent x) (hf : ∀ a, Tells (f a) Q) : Tells (x >>= f) Q := by
  intro w
  obtain ⟨qs, hqs, hQ⟩ := hf (x.run w).1 (x.run w).2
  exact ⟨qs, by rw [run_bind, hqs, hx w], hQ⟩

theorem tells_notify_bind {p : Run.Progress} {f : Unit → Effect β}
    (hf : Tells (f ()) fun b qs => Q b (p :: qs)) : Tells (notify p >>= f) Q := by
  intro w
  obtain ⟨qs, hqs, hQ⟩ := hf ((notify p).run w).2
  refine ⟨p :: qs, ?_, hQ⟩
  rw [run_bind, hqs]
  exact List.append_assoc _ _ _

theorem silent_pure (a : α) : Silent (pure a : Effect α) := fun _ => rfl

theorem Silent.bind (hx : Silent x) (hf : ∀ a, Silent (f a)) : Silent (x >>= f) :=
  fun w => (hf _ _).trans (hx w)

end Tells

theorem silent_log (r : Log.Record) : Silent (log r) := fun w => by
  simpa using (told_log r w).progress

theorem silent_logAll (rs : List Log.Record) : Silent (logAll rs) := fun w => by
  simpa using (told_logAll rs w).progress

theorem silent_report (e : Watch.Event) : Silent (report e) := fun w => by
  simpa using (told_report e w).progress

theorem silent_makeDirs (path : String) : Silent (makeDirs path) := fun _ => rfl

theorem silent_onFiles (f : FileTree → Except FileFailure FileTree) : Silent (onFiles f) := by
  intro w
  cases h : f w.files with
  | ok t => rw [onFiles_run_ok h]
  | error e => rw [onFiles_run_error h]

end Effect

open Effect

/-- The renderer has nothing to do with the progress display. -/
structure Render.Renderer.Quiet (r : Render.Renderer) : Prop where
  version : Silent r.version
  render : ∀ source format, Silent (r.render source format)

/-- A renderer with given answers only notes down what it is asked. -/
theorem Render.Renderer.quiet_scripted (number : ℕ) (s : Render.Script) :
    (Render.Renderer.scripted number s).Quiet :=
  ⟨fun _ => rfl, fun _ _ _ => rfl⟩

namespace Dot.Graph

variable {g : Graph} {r : Render.Renderer} (hr : r.Quiet)

include hr

theorem silent_render (format : String) : Silent (g.render r format) := by
  refine (hr.render _ _).bind fun answer => ?_
  cases answer with
  | ok output => exact silent_pure _
  | error f => exact (silent_log _).bind fun _ => silent_pure _

theorem silent_renderToFile (path format : String) : Silent (g.renderToFile r path format) := by
  refine (silent_render hr format).bind fun output => ?_
  cases output with
  | none => exact silent_pure _
  | some output =>
    refine (silent_makeDirs _).bind fun made => ?_
    cases made with
    | error f => exact (silent_log _).bind fun _ => silent_pure _
    | ok =>
      refine (silent_onFiles _).bind fun written => ?_
      cases written with
      | error e => exact (silent_log _).bind fun _ => silent_pure _
      | ok => exact silent_pure _

theorem silent_toHtml (imageUrl : String) (center : Bool) :
    Silent (g.toHtml r imageUrl center) :=
  (silent_render hr "cmapx").bind fun _ => silent_pure _

end Dot.Graph

namespace Run

/-! ### Courses -/

/-- The messages of a run that has the given stages before it; `ended` says that it goes through all
of them. -/
inductive Course : (stages : List Stage) → (ended : Bool) → List Progress → Prop
  /-- The run stops before its next stage. -/
  | stopped (stages : List Stage) : Course stages false []
  | ended : Course [] true []
  /-- The run stops in a stage, before or after one of its steps. -/
  | cut (stage : Stage) (rest : List Stage) {announced : ℕ} {steps : List String}
      (le : steps.length ≤ announced) :
      Course (stage :: rest) false (.start stage announced :: steps.map .step)
  /-- A stage is over when it has made the steps that it announced. -/
  | stage (stage : Stage) {rest : List Stage} {ended : Bool} {ps : List Progress}
      (steps : List String) (more : Course rest ended ps) :
      Course (stage :: rest) ended
        (.start stage steps.length :: (steps.map .step ++ .finish stage :: ps))

/-- The stages of a run with the given options. -/
def Options.stages (opts : Options) : List Stage :=
  if opts.noIndex then [.resolve, .build, .render] else Stage.all

/-- A loop over steps makes all of them, or fails in one. -/
def Stepwise {α : Type} (steps : List String) (res : Except Fault α) (ps : List Progress) : Prop :=
  ∃ made, made <+: steps ∧ ps = made.map .step ∧ (res.isOk = true → made = steps)

namespace Stepwise

variable {α : Type} {steps : List String} {ps : List Progress} {s : String}

theorem nil (a : α) : Stepwise [] (.ok a) [] := ⟨[], List.nil_prefix, rfl, fun _ => rfl⟩

theorem fail (f : Fault) : Stepwise (s :: steps) (.error f : Except Fault α) [.step s] :=
  ⟨[s], by simp, rfl, fun h => by cases h⟩

/-- After one step the loop goes on with the others. -/
theorem cons {β : Type} {res : Except Fault α} {res' : Except Fault β}
    (hok : res'.isOk = res.isOk) (h : Stepwise steps res ps) :
    Stepwise (s :: steps) res' (.step s :: ps) := by
  obtain ⟨made, hpre, rfl, hmade⟩ := h
  exact ⟨s :: made, by simpa using hpre, rfl, fun h => by rw [hmade (hok ▸ h)]⟩

/-- A loop that fails leaves its stage unfinished. -/
theorem cut {f : Fault} (h : Stepwise steps (.error f : Except Fault α) ps) (stage : Stage)
    (rest : List Stage) : Course (stage :: rest) false (.start stage steps.length :: ps) := by
  obtain ⟨made, hpre, rfl, -⟩ := h
  exact .cut stage rest hpre.length_le

/-- After a loop that does not fail its stage is over. -/
theorem stage {a : α} (h : Stepwise steps (.ok a : Except Fault α) ps) (stage : Stage)
    {rest : List Stage} {ended : Bool} {qs : List Progress} (more : Course rest ended qs) :
    Course (stage :: rest) ended (.start stage steps.length :: (ps ++ .finish stage :: qs)) := by
  obtain ⟨made, -, rfl, hmade⟩ := h
  rw [hmade rfl]
  exact .stage stage steps more

end Stepwise

/-! ### Loops over steps -/

theorem isOk_map {α β : Type} (x : Except Fault α) (f : α → β) : (x.map f).isOk = x.isOk := by
  cases x <;> rfl

theorem silent_resolveTargets (rule : PatternRule) (ix : Index) (done : List EntityId)
    (targets : List String) : Silent (resolveTargets rule ix done targets) := fun w => by
  simpa using (resolveTargets_run rule ix done targets w).2.progress

theorem silent_locateCurrent (ix : Index) (d : Directive) :
    Silent (Runner.locateCurrent ix d) := fun w => by
  simpa using (locateCurrent_run ix d w).2.progress

theorem tells_resolveAll (r : Runner) (ix : Index) (ds : List Directive) :
    Tells (r.resolveAll ix ds) (Stepwise (ds.map (·.kind))) := by
  induction ds with
  | nil => exact tells_pure (Stepwise.nil _)
  | cons d ds ih =>
    rw [Runner.resolveAll]
    refine tells_notify_bind ((silent_resolveTargets _ _ _ _).tells_bind fun found => ?_)
    -- a directive without targets is passed over, one with targets becomes a job
    have hmore (f : List Job × ℕ → List Job × ℕ) :
        Tells (r.resolveAll ix ds >>= fun rest => pure (rest.map f))
          fun res ps => Stepwise ((d :: ds).map (·.kind)) res (.step d.kind :: ps) :=
      ih.bind fun res ps h => tells_pure (by
        rw [List.append_nil]
        exact h.cons (isOk_map res f))
    rcases found with f | ⟨- | ⟨t, ts⟩⟩
    · exact tells_pure (Stepwise.fail f)
    · exact (silent_log _).tells_bind fun _ => hmore _
    · exact (silent_locateCurrent ix d).tells_bind fun _ => hmore _

theorem tells_buildAll (b : Diagram.Builder) (linker : Dot.Linker) (c : Dot.Context)
    (jobs : List Job) :
    Tells (Runner.buildAll b linker c jobs) (Stepwise (jobs.map (·.directive.kind))) := by
  induction jobs generalizing c with
  | nil => exact tells_pure (Stepwise.nil _)
  | cons job jobs ih =>
    rw [Runner.buildAll]
    refine tells_notify_bind ((silent_report _).tells_bind fun _ => ?_)
    cases b.build job.directive.kind job.targets job.directive.options c with
    | error f => exact (silent_report _).tells_bind fun _ => tells_pure (Stepwise.fail f)
    | ok built =>
      refine (silent_logAll _).tells_bind fun _ => (silent_report _).tells_bind fun _ =>
        (silent_log _).tells_bind fun _ => (ih built.context).bind fun res ps h => tells_pure ?_
      rw [List.append_nil]
      exact h.cons (isOk_map res _)

theorem silent_writeFile (dir name : String) (content : ByteArray) :
    Silent (writeFile dir name content) := by
  refine (silent_onFiles _).bind fun written => ?_
  cases written <;> exact silent_pure _

theorem silent_writeIndex (dir : String) (outputs : List Output) :
    Silent (writeIndex dir outputs) := by
  have hget : Silent (get : Effect World) := fun _ => rfl
  exact hget.bind fun _ => silent_writeFile _ _ _

section Renderer

variable {r : Render.Renderer} (hr : r.Quiet)

include hr

theorem silent_writeGraph (opts : Options) (d : Directive) (g : Dot.Graph) :
    Silent (writeGraph r opts d g) := by
  refine (silent_writeFile _ _ _).bind fun written => ?_
  cases written with
  | error f => exact silent_pure _
  | ok =>
    refine (Dot.Graph.silent_renderToFile hr _ _).bind fun _ =>
      (Dot.Graph.silent_toHtml hr _ _).bind fun _ => (silent_writeFile _ _ _).bind fun written => ?_
    cases written <;> exact silent_pure _

theorem tells_writeAll (opts : Options) (graphs : List (Directive × Dot.Graph)) :
    Tells (Runner.writeAll r opts graphs) (Stepwise (graphs.map (·.2.title))) := by
  induction graphs with
  | nil => exact tells_pure (Stepwise.nil _)
  | cons x graphs ih =>
    rw [Runner.writeAll]
    refine tells_notify_bind ((silent_writeGraph hr _ _ _).tells_bind fun written => ?_)
    cases written with
    | error f => exact tells_pure (Stepwise.fail f)
    | ok out =>
      refine ih.bind fun res ps h => tells_pure ?_
      rw [List.append_nil]
      exact h.cons (isOk_map res _)

end Renderer

/-! ### Stages -/

/-- The last stage is left out or has a single step. -/
theorem tells_finish (opts : Options) (outputs : List Output) :
    Tells (Runner.finish opts outputs) fun res ps =>
      Course (if opts.noIndex then [] else [.index]) res.isOk ps := by
  unfold Runner.finish
  cases opts.noIndex with
  | true => exact tells_pure Course.ended
  | false =>
    refine tells_notify_bind
      (tells_notify_bind ((silent_writeIndex _ _).tells_bind fun written => ?_))
    cases written with
    | error f => exact tells_pure (@Course.cut .index [] 1 [indexFile] le_rfl)
    | ok => exact tells_notify_bind (tells_pure (.stage .index [indexFile] .ended))

theorem tells_stages {r : Runner} (hr : r.renderer.Quiet) (ix : Index) (ds : List Directive)
    (opts : Options) :
    Tells (r.stages ix ds opts) fun res ps => Course opts.stages res.isOk ps := by
  have hstages : opts.stages =
      .resolve :: .build :: .render :: if opts.noIndex then [] else [.index] := by
    unfold Options.stages
    split_ifs <;> rfl
  rw [hstages]
  unfold Runner.stages
  refine tells_notify_bind ((tells_resolveAll r ix ds).bind fun resolved ps hps => ?_)
  rw [← List.length_map (·.kind)]
  rcases resolved with f | ⟨jobs, skipped⟩
  · exact tells_pure_append (hps.cut .resolve _)
  refine tells_notify_bind (Tells.mono ?_ fun res qs => hps.stage .resolve)
  refine hr.version.tells_bind fun version => tells_notify_bind
    ((tells_buildAll _ _ _ jobs).bind fun built ps hps => ?_)
  rw [← List.length_map (·.directive.kind)]
  rcases built with f | graphs
  · exact tells_pure_append (hps.cut .build _)
  refine tells_notify_bind (Tells.mono ?_ fun res qs => hps.stage .build)
  refine tells_notify_bind ((tells_writeAll hr opts graphs).bind fun written ps hps => ?_)
  rw [← List.length_map (·.2.title)]
  rcases written with f | outputs
  · exact tells_pure_append (hps.cut .render _)
  refine tells_notify_bind (Tells.mono ?_ fun res qs => hps.stage .render)
  refine (tells_finish opts outputs).bind fun finished ps hps => ?_
  rcases finished with f | ⟨⟩
  · exact tells_pure_append hps
  · exact (silent_log _).tells_bind fun _ => tells_pure_append hps

/-- Every run tells a course through its stages, and goes through all of them exactly when it
succeeds. -/
theorem tells_execute {r : Runner} (hr : r.renderer.Quiet) (ix : Index) (ds : List Directive)
    (opts : Options) :
    Tells (r.execute ix ds opts) fun res ps => Course opts.stages res.isOk ps := by
  unfold Runner.execute
  dsimp only
  cases Validation.checkFormat opts.complete.format with
  | error f => exact tells_pure (.stopped _)
  | ok =>
    cases checkAll ds with
    | error f => exact tells_pure (.stopped _)
    | ok =>
      refine (silent_makeDirs _).tells_bind fun made => ?_
      cases made with
      | error f => exact tells_pure (.stopped _)
      | ok => exact tells_stages hr ix ds opts.complete

end Run
end ApiDiagrams
