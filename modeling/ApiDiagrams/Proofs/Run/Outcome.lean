import ApiDiagrams.Proofs.Run.Writing

/-!
# How a run ends

Checks come first, then the output directory, then the targets and the diagrams; only then is
anything rendered or written. A run that is refused for a reason other than its files has therefore
written none.

* `Ran`: the ways in which a run can end, and `execute_eq_iff`;
* `Diagram.Builder.build_eq_error_iff`: why the builder refuses a diagram;
* `Refusal`: the reasons to refuse a run, and `refusal_iff`: they are those that are not about its
  files;
* `unchanged_of_refused`: what a refused run leaves behind.
-/

namespace ApiDiagrams

/-! ### Why checks fail -/

namespace Validation

variable {f : Fault}

theorem code?_of_checkFormat {format : Text.Raw} (h : checkFormat format = .error f) :
    f.code? = some .invalidFormat := by
  unfold checkFormat at h
  split_ifs at h
  all_goals
    cases h
    rfl

theorem code?_of_checkName {name : Text.Raw} (h : checkName name = .error f) :
    f.code? = some .invalidName := by
  unfold checkName at h
  split_ifs at h
  all_goals
    cases h
    rfl

theorem code?_of_checkDirection {dir : String} (h : checkDirection dir = .error f) :
    f.code? = some .invalidDirection := by
  unfold checkDirection at h
  split_ifs at h
  cases h
  rfl

end Validation

namespace Diagram

theorem Kind.ofText?_eq_some_iff {s : String} {k : Kind} : Kind.ofText? s = some k ↔ s = k.text := by
  constructor
  · intro h
    unfold Kind.ofText? at h
    have htext := List.find?_some h
    exact (beq_iff_eq.1 htext).symm
  · rintro rfl
    cases k <;> decide

theorem Kind.ofText?_eq_none_iff {s : String} : Kind.ofText? s = none ↔ ∀ k : Kind, s ≠ k.text := by
  constructor
  · intro h k hk
    rw [Kind.ofText?_eq_some_iff.2 hk] at h
    cases h
  · intro h
    cases hs : Kind.ofText? s with
    | none => rfl
    | some k => exact absurd (Kind.ofText?_eq_some_iff.1 hs) (h k)

theorem Kind.code?_of_parse {s : String} {f : Fault} (h : Kind.parse s = .error f) :
    f.code? = some .invalidGraphKind := by
  unfold Kind.parse at h
  split at h
  · cases h
  · cases h
    rfl

/-- How the builder refuses a kind that it does not know. -/
def unknownKind (kind : String) : Fault :=
  .coded .invalidGraphKind ("unknown graph kind " ++ Text.quote kind)

theorem Builder.build_eq_error_iff {b : Builder} {kind : String} {targets : List EntityId}
    {opts : Options} {c : Dot.Context} {f : Fault} :
    b.build kind targets opts c = .error f ↔ Validation.checkDirection opts.dir = .error f ∨
      Validation.checkDirection opts.dir = .ok () ∧ (∀ k : Kind, kind ≠ k.text) ∧
        f = unknownKind kind := by
  unfold build
  rw [bind_eq_error_iff]
  refine or_congr Iff.rfl ?_
  constructor
  · rintro ⟨⟨⟩, hdir, h⟩
    cases hk : Kind.ofText? kind with
    | none =>
      rw [hk] at h
      cases h
      exact ⟨hdir, Kind.ofText?_eq_none_iff.1 hk, rfl⟩
    | some k =>
      rw [hk] at h
      cases h
  · rintro ⟨hdir, hk, rfl⟩
    refine ⟨(), hdir, ?_⟩
    rw [Kind.ofText?_eq_none_iff.2 hk]
    rfl

end Diagram

namespace Run

/-- No check of a directive is about files. -/
theorem Directive.code?_of_check {d : Directive} {f : Fault} (h : d.check = .error f) :
    f.code? ≠ some .invalidPath := by
  have hdirection (h : Validation.checkDirection d.options.dir = .error f) :
      f.code? ≠ some .invalidPath := by
    rw [Validation.code?_of_checkDirection h]
    decide
  unfold Directive.check at h
  rcases bind_eq_error_iff.1 h with h | ⟨k, -, h⟩
  · rw [Diagram.Kind.code?_of_parse h]
    decide
  · split_ifs at h
    · cases h
      exact (by decide : some Code.invalidInput ≠ some Code.invalidPath)
    · rcases bind_eq_error_iff.1 h with h | ⟨⟨⟩, -, h⟩
      · rw [Validation.code?_of_checkName h]
        decide
      · exact hdirection h
    · exact hdirection h

theorem code?_of_resolveTarget {rule : PatternRule} {ix : Index} {t : String} {f : Fault}
    (h : resolveTarget rule ix t = .error f) : f.code? = some .invalidInput := by
  unfold resolveTarget at h
  split at h
  · cases h
  · split at h
    · cases h
    · cases h
      rfl

/-! ### Endings -/

theorem outDir_complete_ne (opts : Options) : opts.complete.outDir ≠ "" := by
  unfold Options.complete
  dsimp only
  split_ifs with h
  · decide
  · exact h

/-- The ways in which a run can end: a check fails, the output directory cannot be made, the stages
before rendering stop, or those from rendering on come to an end. -/
inductive Ran (r : Runner) (ix : Index) (ds : List Directive) (opts : Options) (w : World) :
    Except Fault Result → World → Prop
  | format {f : Fault} (fails : Validation.checkFormat opts.complete.format = .error f) :
    Ran r ix ds opts w (.error f) w
  | directives {f : Fault} (format : Validation.checkFormat opts.complete.format = .ok ())
      (fails : checkAll ds = .error f) : Ran r ix ds opts w (.error f) w
  | directory {t : FileTree} {front : String} {e : FileFailure}
      (format : Validation.checkFormat opts.complete.format = .ok ()) (checked : checkAll ds = .ok ())
      (fails : w.files.makeDirs opts.complete.outDir = (t, .error (front, e))) :
    Ran r ix ds opts w (.error (.wrapped .invalidPath
      ("create output directory " ++ opts.complete.outDir) (e.fault "mkdir" front)))
      { w with files := t }
  | stopped {t : FileTree} {f : Fault} {w' : World}
      (format : Validation.checkFormat opts.complete.format = .ok ()) (checked : checkAll ds = .ok ())
      (made : w.files.makeDirs opts.complete.outDir = (t, .ok ()))
      (fails : (r.prepare ix ds).run { w with files := t } = (.error f, w')) :
    Ran r ix ds opts w (.error f) w'
  | published {t : FileTree} {graphs : List (Directive × Dot.Graph)} {skipped : ℕ}
      {res : Except Fault Result} {w₁ w' : World}
      (format : Validation.checkFormat opts.complete.format = .ok ()) (checked : checkAll ds = .ok ())
      (made : w.files.makeDirs opts.complete.outDir = (t, .ok ()))
      (prepared : (r.prepare ix ds).run { w with files := t } = (.ok (graphs, skipped), w₁))
      (publishes : (Runner.publish r.renderer opts.complete graphs skipped).run w₁ = (res, w')) :
    Ran r ix ds opts w res w'

section Execute

variable {r : Runner} {ix : Index} {ds : List Directive} {opts : Options} {w w' : World}

theorem execute_run_of_format {f : Fault}
    (fails : Validation.checkFormat opts.complete.format = .error f) :
    (r.execute ix ds opts).run w = (.error f, w) := by
  unfold Runner.execute
  dsimp only
  rw [fails]
  rfl

theorem execute_run_of_directives {f : Fault}
    (format : Validation.checkFormat opts.complete.format = .ok ()) (fails : checkAll ds = .error f) :
    (r.execute ix ds opts).run w = (.error f, w) := by
  unfold Runner.execute
  dsimp only
  rw [format, fails]
  rfl

theorem execute_run_of_checked (format : Validation.checkFormat opts.complete.format = .ok ())
    (checked : checkAll ds = .ok ()) : (r.execute ix ds opts).run w =
      match w.files.makeDirs opts.complete.outDir with
      | (t, .error (front, e)) => (.error (.wrapped .invalidPath
          ("create output directory " ++ opts.complete.outDir) (e.fault "mkdir" front)),
          { w with files := t })
      | (t, .ok ()) => ((r.prepare ix ds).andThen fun (graphs, skipped) =>
          Runner.publish r.renderer opts.complete graphs skipped).run { w with files := t } := by
  unfold Runner.execute
  dsimp only
  rw [format, checked]
  dsimp only
  rw [Effect.run_bind, Effect.makeDirs_run]
  rcases w.files.makeDirs opts.complete.outDir with ⟨t, ⟨front, e⟩ | ⟨⟩⟩
  · rfl
  · rw [Runner.stages_eq]
    rfl

theorem execute_eq_iff {res : Except Fault Result} :
    (r.execute ix ds opts).run w = (res, w') ↔ Ran r ix ds opts w res w' := by
  constructor
  · intro h
    cases hf : Validation.checkFormat opts.complete.format with
    | error f =>
      rw [execute_run_of_format hf] at h
      cases h
      exact .format hf
    | ok =>
      cases hd : checkAll ds with
      | error f =>
        rw [execute_run_of_directives hf hd] at h
        cases h
        exact .directives hf hd
      | ok =>
        rw [execute_run_of_checked hf hd] at h
        rcases hm : w.files.makeDirs opts.complete.outDir with ⟨t, ⟨front, e⟩ | ⟨⟩⟩
        · rw [hm] at h
          cases h
          exact .directory hf hd hm
        · rw [hm] at h
          rcases hp : (r.prepare ix ds).run { w with files := t } with ⟨f | ⟨graphs, skipped⟩, w₁⟩
          · have h' := (Effect.andThen_run_error hp).symm.trans h
            cases h'
            exact .stopped hf hd hm hp
          · exact .published hf hd hm hp ((Effect.andThen_run_ok hp).symm.trans h)
  · intro h
    cases h with
    | format fails => exact execute_run_of_format fails
    | directives format fails => exact execute_run_of_directives format fails
    | directory format checked fails => rw [execute_run_of_checked format checked, fails]
    | stopped format checked made fails =>
      rw [execute_run_of_checked format checked, made]
      exact Effect.andThen_run_error fails
    | published format checked made prepared publishes =>
      rw [execute_run_of_checked format checked, made]
      exact (Effect.andThen_run_ok prepared).trans publishes

end Execute

/-! ### Runs that are refused -/

theorem exists_of_checkAll_eq_error {ds : List Directive} {f : Fault}
    (h : checkAll ds = .error f) : ∃ d ∈ ds, d.check = .error f := by
  induction ds with
  | nil => cases h
  | cons d ds ih =>
    rw [checkAll] at h
    rcases bind_eq_error_iff.1 h with h | ⟨-, -, h⟩
    · exact ⟨d, List.mem_cons_self, h⟩
    · obtain ⟨d', hd', hf⟩ := ih h
      exact ⟨d', List.mem_cons_of_mem _ hd', hf⟩

/-- The reasons to refuse a run: its format, a directive, a target pattern or a diagram. -/
inductive Refusal (r : Runner) (ix : Index) (ds : List Directive) (opts : Options) (f : Fault) :
    Prop
  | format (fails : Validation.checkFormat opts.complete.format = .error f)
  | directive {d : Directive} (mem : d ∈ ds) (fails : d.check = .error f)
  | target {d : Directive} {t : String} (mem : d ∈ ds) (target : t ∈ d.targets)
      (fails : resolveTarget r.rule ix t = .error f)
  | diagram {d : Directive} {version : Render.Version} {targets : List EntityId} {c : Dot.Context}
      (mem : d ∈ ds)
      (fails : (r.builder ix version).build d.kind targets (located ix d).options c = .error f)

theorem kind_located (ix : Index) (d : Directive) : (located ix d).kind = d.kind := by
  unfold located
  split_ifs <;> rfl

theorem refusal_of_prepare {r : Runner} {ix : Index} {ds : List Directive} {opts : Options}
    {w w' : World} {f : Fault} (h : (r.prepare ix ds).run w = (.error f, w')) :
    Refusal r ix ds opts f := by
  cases Runner.prepared_of_prepare h with
  | unresolved fails _ =>
    obtain ⟨d, hd, t, ht, hf⟩ := exists_of_jobsOf_eq_error fails
    exact .target hd ht hf
  | unbuilt jobs_eq _ fails _ =>
    obtain ⟨job, hjob, c, hf⟩ := exists_of_drawAll_eq_error fails
    obtain ⟨d, hd, heq⟩ : ∃ d ∈ ds, located ix d = job.directive := by
      have hmem := List.mem_map_of_mem (f := Job.directive) hjob
      rw [(jobsOf_eq_ok jobs_eq).1] at hmem
      obtain ⟨d, hd, heq⟩ := List.mem_map.1 hmem
      exact ⟨d, List.mem_of_mem_filter hd, heq⟩
    rw [← heq, kind_located] at hf
    exact .diagram hd hf

/-- The files after the stages before rendering, where the renderer's telling its version leaves
them alone. -/
theorem get?_prepare {r : Runner} {ix : Index} {ds : List Directive} {w w' : World}
    {res : Except Fault (List (Directive × Dot.Graph) × ℕ)}
    (h : (r.prepare ix ds).run w = (res, w')) {p : Place}
    (hp : ∀ v, (r.renderer.version.run v).2.files.get? p = v.files.get? p) :
    w'.files.get? p = w.files.get? p := by
  cases Runner.prepared_of_prepare h with
  | unresolved _ told => rw [told.files]
  | unbuilt _ told _ told' => rw [told'.files, hp, told.files]
  | built _ told _ told' => rw [told'.files, hp, told.files]

/-- No refusal is about files. -/
theorem Refusal.code?_ne {r : Runner} {ix : Index} {ds : List Directive} {opts : Options}
    {f : Fault} (h : Refusal r ix ds opts f) : f.code? ≠ some .invalidPath := by
  cases h with
  | format fails =>
    rw [Validation.code?_of_checkFormat fails]
    decide
  | directive _ fails => exact Directive.code?_of_check fails
  | target _ _ fails =>
    rw [code?_of_resolveTarget fails]
    decide
  | diagram _ fails =>
    rcases Diagram.Builder.build_eq_error_iff.1 fails with fails | ⟨-, -, rfl⟩
    · rw [Validation.code?_of_checkDirection fails]
      decide
    · exact (by decide : some Code.invalidGraphKind ≠ some Code.invalidPath)

/-- A run fails because of the files or is refused. -/
theorem refusal_of_execute {r : Runner} {ix : Index} {ds : List Directive} {opts : Options}
    {w w' : World} {f : Fault} (h : (r.execute ix ds opts).run w = (.error f, w')) :
    FileFault opts.complete.outDir f ∨ Refusal r ix ds opts f := by
  cases execute_eq_iff.1 h with
  | format fails => exact Or.inr (.format fails)
  | directives _ fails =>
    obtain ⟨d, hd, hfails⟩ := exists_of_checkAll_eq_error fails
    exact Or.inr (.directive hd hfails)
  | directory => exact Or.inl (.create _ _)
  | stopped _ _ _ fails => exact Or.inr (refusal_of_prepare fails)
  | published _ _ _ _ publishes => exact Or.inl (Runner.fileFault_of_publish publishes)

/-- The refusals are the failures that are not about files. -/
theorem refusal_iff {r : Runner} {ix : Index} {ds : List Directive} {opts : Options}
    {w w' : World} {f : Fault} (h : (r.execute ix ds opts).run w = (.error f, w')) :
    Refusal r ix ds opts f ↔ ¬ FileFault opts.complete.outDir f := by
  constructor
  · intro hr hf
    exact hr.code?_ne hf.code?_eq
  · exact (refusal_of_execute h).resolve_left

/-- **A run that fails for a reason other than the files writes none.** It was refused; no file has
changed and nothing but the output directory and those above it has been made, wherever the renderer
leaves the files alone when it tells its version; and it would have gone just the same with any
other way to lay out graphs. -/
theorem unchanged_of_refused {r : Runner} {ix : Index} {ds : List Directive} {opts : Options}
    {w w' : World} {f : Fault} (h : (r.execute ix ds opts).run w = (.error f, w'))
    (hf : ¬ FileFault opts.complete.outDir f) :
    Refusal r ix ds opts f ∧
    (∀ p, (∀ v, (r.renderer.version.run v).2.files.get? p = v.files.get? p) →
      w'.files.get? p = w.files.get? p ∨
        w.files.get? p = none ∧ w'.files.get? p = some .directory ∧
          ∃ front ∈ Path.fronts opts.complete.outDir, p = FileTree.placeOf front) ∧
    ∀ render, ((r.withRender render).execute ix ds opts).run w = (.error f, w') := by
  refine ⟨(refusal_iff h).2 hf, ?_⟩
  cases execute_eq_iff.1 h with
  | format fails => exact ⟨fun p _ => Or.inl rfl, fun render => execute_eq_iff.2 (.format fails)⟩
  | directives format fails =>
    exact ⟨fun p _ => Or.inl rfl, fun render => execute_eq_iff.2 (.directives format fails)⟩
  | directory => exact absurd (.create _ _) hf
  | stopped format checked made fails =>
    refine ⟨fun p hp => ?_, fun render => execute_eq_iff.2 ?_⟩
    · rw [get?_prepare fails hp]
      have hmade := FileTree.made_makeDirs w.files opts.complete.outDir p
      rw [made] at hmade
      exact hmade
    · rw [← Runner.prepare_withRender r render] at fails
      exact .stopped format checked made fails
  | published _ _ _ _ publishes => exact absurd (Runner.fileFault_of_publish publishes) hf

theorem eq_of_fst_eq {x : Except Fault Result × World} {res : Except Fault Result}
    (h : x.1 = res) : x = (res, x.2) := by
  rw [← h]

/-- A run of an import graph whose target is an ill-formed pattern. -/
def strayPattern : Except Fault Result × World :=
  (Runner.execute { renderer := Render.Renderer.scripted 0 {} } .empty
    [{ kind := "import-graph", targets := ["["] }] { outDir := "out/a" }).run {}

/-- How that run fails. -/
def strayFault : Fault :=
  .wrapped .invalidInput "target \"[\"" (.plain "syntax error in pattern")

theorem unchanged_of_stray_pattern : ¬ FileFault "out/a" strayFault ∧
    ∀ p, strayPattern.2.files.get? p = FileTree.get? {} p ∨
      FileTree.get? {} p = none ∧ strayPattern.2.files.get? p = some .directory ∧
        ∃ front ∈ Path.fronts "out/a", p = FileTree.placeOf front := by
  have hf : ¬ FileFault "out/a" strayFault := by
    intro h
    exact absurd h.code?_eq (by decide)
  have hfst : strayPattern.1 = .error strayFault := by decide +kernel
  have hrun := eq_of_fst_eq hfst
  exact ⟨hf, fun p => (unchanged_of_refused hrun hf).2.1 p fun v => rfl⟩

end Run
end ApiDiagrams
