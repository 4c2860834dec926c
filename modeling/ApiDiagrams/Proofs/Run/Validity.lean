import ApiDiagrams.Proofs.Run.Outcome

/-!
# What the check of directives guarantees

A directive is checked before any work is done, and the builder looks at it again. Both agree on
directions. They do not agree on kinds: the check accepts a kind in any letter case and with blanks
around it, the builder only the exact word.

* `Directive.dir_of_check`: a checked directive has a direction that the builder accepts;
* `sound_up_to_spelling`: a checked directive can be built exactly when its kind is spelled exactly,
  and this is the only thing besides the format and the files that such a run can fail of.
-/

namespace ApiDiagrams
namespace Run

theorem Directive.dir_of_check {d : Directive} (h : d.check = .ok ()) :
    Validation.checkDirection d.options.dir = .ok () := by
  unfold Directive.check at h
  obtain ⟨k, -, h⟩ := bind_eq_ok_iff.1 h
  split_ifs at h
  · obtain ⟨⟨⟩, -, h⟩ := bind_eq_ok_iff.1 h
    exact h
  · exact h

theorem dir_located (ix : Index) (d : Directive) :
    (located ix d).options.dir = d.options.dir := by
  unfold located
  split_ifs <;> rfl

theorem isValid_of_resolveTarget_eq_error {rule : PatternRule} {ix : Index} {t : String}
    {f : Fault} (h : resolveTarget rule ix t = .error f) :
    ix.lookup t = none ∧ rule.isValid (Name.parse t).path = false := by
  unfold resolveTarget Index.select at h
  cases hl : ix.lookup t with
  | some i =>
    rw [hl] at h
    cases h
  | none =>
    refine ⟨rfl, ?_⟩
    by_contra hv
    rw [Bool.not_eq_false] at hv
    simp [hl, hv] at h

/-- A diagram that was built has the exact word for its kind. -/
theorem exists_kind_of_drawAll {b : Diagram.Builder} {linker : Dot.Linker} {c : Dot.Context}
    {jobs : List Job} {graphs : List (Directive × Dot.Graph)}
    (h : drawAll b linker c jobs = .ok graphs) {job : Job} (hjob : job ∈ jobs) :
    ∃ k : Diagram.Kind, job.directive.kind = k.text := by
  induction jobs generalizing c graphs with
  | nil => cases hjob
  | cons first jobs ih =>
    rw [drawAll, bind_eq_ok_iff] at h
    obtain ⟨built, hbuilt, h⟩ := h
    obtain ⟨more, hmore, -⟩ := bind_eq_ok_iff.1 h
    rcases List.mem_cons.1 hjob with rfl | hjob
    · obtain ⟨-, k, hk, -⟩ := (b.build_eq_ok_iff _ _ _).1 hbuilt
      exact ⟨k, Diagram.Kind.ofText?_eq_some_iff.1 hk⟩
    · exact ih hmore hjob

/-- A checked directive can be built exactly when its kind is the exact word for a kind. -/
theorem exists_build_iff {d : Directive} (h : d.check = .ok ()) (b : Diagram.Builder)
    (targets : List EntityId) (c : Dot.Context) :
    (∃ built, b.build d.kind targets d.options c = .ok built) ↔
      ∃ k : Diagram.Kind, d.kind = k.text := by
  constructor
  · rintro ⟨built, hbuilt⟩
    obtain ⟨-, k, hk, -⟩ := (b.build_eq_ok_iff _ _ _).1 hbuilt
    exact ⟨k, Diagram.Kind.ofText?_eq_some_iff.1 hk⟩
  · rintro ⟨k, hk⟩
    exact ⟨_, (b.build_eq_ok_iff _ _ _).2
      ⟨Directive.dir_of_check h, k, Diagram.Kind.ofText?_eq_some_iff.2 hk, rfl⟩⟩

section Runs

variable {r : Runner} {ix : Index} {ds : List Directive} {opts : Options} {w w' : World}

/-- Checked directives and well-formed patterns leave only these reasons to fail. -/
theorem fault_of_checked (hd : ∀ d ∈ ds, d.check = .ok ())
    (ht : ∀ d ∈ ds, ∀ t ∈ d.targets,
      (ix.lookup t).isSome = true ∨ r.rule.isValid (Name.parse t).path = true)
    {f : Fault} (h : (r.execute ix ds opts).run w = (.error f, w')) :
    FileFault opts.complete.outDir f ∨ Validation.checkFormat opts.complete.format = .error f ∨
      ∃ d ∈ ds, (∀ k : Diagram.Kind, d.kind ≠ k.text) ∧ f = Diagram.unknownKind d.kind := by
  by_cases hf : FileFault opts.complete.outDir f
  · exact Or.inl hf
  · right
    cases (refusal_iff h).2 hf with
    | format fails => exact Or.inl fails
    | directive mem fails =>
      rw [hd _ mem] at fails
      cases fails
    | target mem target fails =>
      obtain ⟨hnone, hinvalid⟩ := isValid_of_resolveTarget_eq_error fails
      rcases ht _ mem _ target with hsome | hvalid
      · rw [hnone] at hsome
        cases hsome
      · rw [hinvalid] at hvalid
        cases hvalid
    | diagram mem fails =>
      rcases Diagram.Builder.build_eq_error_iff.1 fails with hdir | ⟨-, hkind, heq⟩
      · rw [dir_located, Directive.dir_of_check (hd _ mem)] at hdir
        cases hdir
      · exact Or.inr ⟨_, mem, hkind, heq⟩

/-- A directive that was not skipped by a successful run has the exact word for its kind. -/
theorem exists_kind_of_execute {res : Result} (h : (r.execute ix ds opts).run w = (.ok res, w'))
    {d : Directive} (hmem : d ∈ ds) (hres : resolves r.rule ix d = true) :
    ∃ k : Diagram.Kind, d.kind = k.text := by
  cases execute_eq_iff.1 h with
  | published format checked made prepared publishes =>
    cases Runner.prepared_of_prepare prepared with
    | built jobs_eq told draws told' =>
      have hlocated : located ix d ∈ (ds.filter (resolves r.rule ix)).map (located ix) :=
        List.mem_map_of_mem (List.mem_filter.2 ⟨hmem, hres⟩)
      rw [← (jobsOf_eq_ok jobs_eq).1] at hlocated
      obtain ⟨job, hjob, heq⟩ := List.mem_map.1 hlocated
      obtain ⟨k, hk⟩ := exists_kind_of_drawAll draws hjob
      rw [heq, kind_located] at hk
      exact ⟨k, hk⟩

end Runs

/-- **What the check of directives guarantees.** Each of some checked directives can be built, by every
builder, for all targets and in every context, exactly when its kind is the exact word for a kind. If
their targets are names or well-formed patterns, a run of them fails only because of the files, of its
format, or of a kind that is not spelled exactly; and no run with such a kind succeeds, unless the
directive is skipped. -/
theorem sound_up_to_spelling {ds : List Directive} (hd : ∀ d ∈ ds, d.check = .ok ()) :
    (∀ d ∈ ds, ∀ (b : Diagram.Builder) (targets : List EntityId) (c : Dot.Context),
      (∃ built, b.build d.kind targets d.options c = .ok built) ↔
        ∃ k : Diagram.Kind, d.kind = k.text) ∧
    ∀ (r : Runner) (ix : Index) (opts : Options) (w w' : World),
      (∀ d ∈ ds, ∀ t ∈ d.targets,
        (ix.lookup t).isSome = true ∨ r.rule.isValid (Name.parse t).path = true) →
      (∀ f, (r.execute ix ds opts).run w = (.error f, w') →
        FileFault opts.complete.outDir f ∨ Validation.checkFormat opts.complete.format = .error f ∨
          ∃ d ∈ ds, (∀ k : Diagram.Kind, d.kind ≠ k.text) ∧ f = Diagram.unknownKind d.kind) ∧
      ∀ res, (r.execute ix ds opts).run w = (.ok res, w') →
        ∀ d ∈ ds, resolves r.rule ix d = true → ∃ k : Diagram.Kind, d.kind = k.text := by
  refine ⟨fun d hmem b targets c => exists_build_iff (hd d hmem) b targets c, ?_⟩
  intro r ix opts w w' ht
  exact ⟨fun f h => fault_of_checked hd ht h, fun res h d hmem hres =>
    exists_kind_of_execute h hmem hres⟩

/-- A directive for an import graph, its kind in the given spelling. -/
def importDirective (kind : String) : Directive := { kind, targets := ["m"] }

theorem sound_of_exact_kind :
    (∃ built, Diagram.Builder.build { index := .empty } "import-graph" [] {} {} = .ok built) ∧
    ∀ f w', (Runner.execute { renderer := Render.Renderer.scripted 0 {} } .empty
        [importDirective "import-graph"] { outDir := "out" }).run {} = (.error f, w') →
      FileFault "out" f ∨ Validation.checkFormat "png" = .error f ∨
        ∃ d ∈ [importDirective "import-graph"], (∀ k : Diagram.Kind, d.kind ≠ k.text) ∧
          f = Diagram.unknownKind d.kind := by
  have hcheck : ∀ d ∈ [importDirective "import-graph"], d.check = .ok () := by
    intro d hd
    rw [List.mem_singleton.1 hd]
    decide +kernel
  obtain ⟨hbuild, hrun⟩ := sound_up_to_spelling hcheck
  refine ⟨(hbuild _ List.mem_cons_self _ [] {}).2 ⟨.importGraph, rfl⟩, fun f w' => ?_⟩
  refine (hrun _ _ _ _ w' fun d hd t ht => ?_).1 f
  rw [List.mem_singleton.1 hd, importDirective, List.mem_singleton] at ht
  rw [ht]
  exact Or.inr (by decide +kernel)

/-- The check accepts a kind in capitals, which no builder does. -/
theorem capital_kind_is_checked_and_refused :
    (importDirective "Import-Graph").check = .ok () ∧
    ∀ (b : Diagram.Builder) (targets : List EntityId) (c : Dot.Context),
      b.build (importDirective "Import-Graph").kind targets (importDirective "Import-Graph").options
        c = .error (Diagram.unknownKind "Import-Graph") := by
  refine ⟨by decide +kernel, fun b targets c => ?_⟩
  refine Diagram.Builder.build_eq_error_iff.2 (Or.inr ⟨rfl, fun k => ?_, rfl⟩)
  cases k <;> decide

end Run
end ApiDiagrams
