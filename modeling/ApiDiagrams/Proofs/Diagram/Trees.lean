import ApiDiagrams.Proofs.Diagram.Nesting
import ApiDiagrams.Proofs.Diagram.Picture

/-!
# What trees show

A class tree shows classes and their direct subclasses, a plain package tree shows packages and
their direct submodules. Both hold what can be reached from the targets. Inheritance may have
cycles and diamonds, so class trees need not be trees; packages make up a forest.

* `Builder.mem_drawnClasses_iff`: the classes of a class tree;
* `Builder.classTree_displays`: a class tree shows these, and both searches come to an end;
* `Builder.plainTree_displays`: a plain package tree shows a forest.
-/

namespace ApiDiagrams
namespace Diagram
namespace Builder

variable {m : Model} {b : Builder} {targets : List EntityId} {opts : Options}

/-- The pairs of a relation that is listed entity by entity. -/
theorem mem_flatMap_pairs_iff {is : List EntityId} {next : EntityId → List EntityId}
    {i j : EntityId} (hi : i ∈ is) :
    (i, j) ∈ (is.flatMap fun i => (next i).map fun j => (i, j)) ↔ j ∈ next i := by
  simp [List.mem_flatMap, hi]

/-! ### Classes -/

/-- The entity is a target, or derives from one, or a target derives from it, directly or not. -/
def IsKin (ix : Index) (targets : List EntityId) (i : EntityId) : Prop :=
  ∃ t ∈ targets, Relation.ReflTransGen (fun i j => j ∈ (ix.entity i).subclasses) t i ∨
    Relation.ReflTransGen (fun i j => j ∈ (ix.entity i).bases) t i

theorem lt_size_of_mem_references (h : m.Valid) {i j : EntityId}
    (hi : i < m.index.entities.size) (hj : j ∈ Model.references m.index i) :
    j < m.index.entities.size :=
  (Model.mem_listed_iff_lt h).1
    (Model.mem_listed_of_mem_references h ((Model.mem_listed_iff_lt h).2 hi) hj)

theorem lt_size_of_mem_subclasses (h : m.Valid) (i : EntityId) (hi : i < m.index.entities.size) :
    ∀ j ∈ (m.index.entity i).subclasses, j < m.index.entities.size := fun j hj =>
  lt_size_of_mem_references h hi (by simp [Model.references, hj])

theorem lt_size_of_mem_bases (h : m.Valid) (i : EntityId) (hi : i < m.index.entities.size) :
    ∀ j ∈ (m.index.entity i).bases, j < m.index.entities.size := fun j hj =>
  lt_size_of_mem_references h hi (by simp [Model.references, hj])

theorem mem_classFamily_iff (h : m.Valid) (hindex : b.index = m.index)
    (ht : ∀ t ∈ targets, t ∈ m.index.listed) {i : EntityId} :
    i ∈ b.classFamily targets ↔ IsKin m.index targets i := by
  have hlt : ∀ t ∈ targets, t < m.index.entities.size := fun t htarget =>
    (Model.mem_listed_iff_lt h).1 (ht t htarget)
  unfold classFamily IsKin
  rw [List.mem_eraseDups, List.mem_append, hindex,
    mem_reachable_iff hlt (lt_size_of_mem_subclasses h),
    mem_reachable_iff hlt (lt_size_of_mem_bases h), ← exists_or]
  simp only [and_or_left]

theorem mem_drawnClasses_iff (h : m.Valid) (hindex : b.index = m.index)
    (ht : ∀ t ∈ targets, t ∈ m.index.listed) {i : EntityId} :
    i ∈ b.drawnClasses targets ↔ (m.index.entity i).kind = .classType ∧
      (m.index.entity i).isRoot = false ∧ IsKin m.index targets i := by
  unfold drawnClasses isDrawnClass
  rw [List.mem_filter, mem_classFamily_iff h hindex ht, hindex]
  simp only [Bool.and_eq_true, decide_eq_true_eq, Bool.not_eq_true']
  tauto

/-- A class tree has one node for each class but the root that is a target, derives from one or is
derived from by one, and one edge from each of them to each of its direct subclasses. The searches
for these classes come to an end. -/
theorem classTree_displays (m : Model) (ix : Index) (b : Builder) (hbuild : m.build = .ok ix)
    (hindex : b.index = ix) (targets : List EntityId) (ht : ∀ t ∈ targets, t ∈ ix.listed)
    (opts : Options) (c : Dot.Context) :
    (∃ is, Displays (b.classTree targets opts c).1 (nodeOf (b.nodeStyle opts) c.nextId is) is
        (fun i j => j ∈ (ix.entity i).subclasses) ∧
      ∀ i, i ∈ is ↔ (ix.entity i).kind = .classType ∧ (ix.entity i).isRoot = false ∧
        IsKin ix targets i) ∧
    ∃ derived bases,
      Searches (fun i => (ix.entity i).subclasses) targets targets.eraseDups derived ∧
      Searches (fun i => (ix.entity i).bases) targets targets.eraseDups bases ∧
      b.classFamily targets = (derived ++ bases).eraseDups := by
  obtain ⟨hv, rfl⟩ := Model.build_eq_ok_iff.1 hbuild
  have hlt : ∀ t ∈ targets, t < m.index.entities.size := fun t htarget =>
    (Model.mem_listed_iff_lt hv).1 (ht t htarget)
  constructor
  · rw [classTree_eq_draw]
    refine ⟨_, Plan.displays_draw (p := b.classPlan targets opts) ?_ ?_, fun i => ?_⟩
    · exact nodup_sortByName ((nodup_eraseDups _).filter _)
    · intro i hi j _
      rw [← hindex]
      exact mem_flatMap_pairs_iff (mem_sortByName.1 hi)
    · exact mem_sortByName.trans (mem_drawnClasses_iff hv hindex ht)
  · refine ⟨_, _, searches_reachable hlt (lt_size_of_mem_subclasses hv),
      searches_reachable hlt (lt_size_of_mem_bases hv), ?_⟩
    rw [classFamily, hindex]

/-- Two classes that derive from each other, one of them from the root too, and a class that derives
from the other. -/
def cyclic : Model where
  entities :=
    [{ name := "m.C", kind := "class", bases := ["m.D", "object"] },
     { name := "m.D", kind := "class", bases := ["m.C"] },
     { name := "m.E", kind := "class", bases := ["m.D"] }]

theorem classTree_displays_of_cycle :
    cyclic.build = .ok cyclic.index ∧ (∀ t ∈ [2], t ∈ cyclic.index.listed) ∧
    (∃ is, Displays ((pageless cyclic.index).classTree [2] {} {}).1
        (nodeOf ((pageless cyclic.index).nodeStyle {}) 0 is) is
        (fun i j => j ∈ (cyclic.index.entity i).subclasses) ∧
      ∀ i, i ∈ is ↔ (cyclic.index.entity i).kind = .classType ∧
        (cyclic.index.entity i).isRoot = false ∧ IsKin cyclic.index [2] i) ∧
    ∃ derived bases,
      Searches (fun i => (cyclic.index.entity i).subclasses) [2] [2].eraseDups derived ∧
      Searches (fun i => (cyclic.index.entity i).bases) [2] [2].eraseDups bases ∧
      (pageless cyclic.index).classFamily [2] = (derived ++ bases).eraseDups := by
  have hbuild : cyclic.build = .ok cyclic.index := by decide +kernel
  have ht : ∀ t ∈ [2], t ∈ cyclic.index.listed := by decide +kernel
  exact ⟨hbuild, ht, classTree_displays cyclic cyclic.index (pageless cyclic.index) hbuild rfl [2] ht
    {} {}⟩

/-! ### Packages -/

/-- No module is a submodule of two packages. -/
theorem eq_of_mem_submodules (h : m.Valid) {p q d : EntityId} (hp : p ∈ m.index.listed)
    (hq : q ∈ m.index.listed) (hdp : d ∈ (m.index.entity p).submodules)
    (hdq : d ∈ (m.index.entity q).submodules) : p = q :=
  (Model.consistent_index h).container p q d ⟨hp, List.mem_append_left _ hdp⟩
    ⟨hq, List.mem_append_left _ hdq⟩

/-- No module lies below itself. -/
theorem not_transGen_submodules (h : m.Valid) {i : EntityId} (hi : i ∈ m.index.listed) :
    ¬ Relation.TransGen (fun p d => d ∈ (m.index.entity p).submodules) i i := by
  intro hcycle
  suffices hcontains : ∀ d, Relation.TransGen (fun p d => d ∈ (m.index.entity p).submodules) i d →
      d ∈ m.index.listed ∧ Relation.TransGen (Model.Contains m.index) i d from
    (Model.consistent_index h).acyclic i (hcontains i hcycle).2
  intro d hd
  induction hd with
  | single hstep =>
    exact ⟨(Model.of_mem_submodules h hi hstep).1, .single ⟨hi, List.mem_append_left _ hstep⟩⟩
  | tail _ hstep ih =>
    exact ⟨(Model.of_mem_submodules h ih.1 hstep).1,
      ih.2.tail ⟨ih.1, List.mem_append_left _ hstep⟩⟩

/-- A plain package tree has one node for each target and for each module below one, and one edge
from each of them to each of its direct submodules. These edges make up a forest. -/
theorem plainTree_displays (m : Model) (ix : Index) (b : Builder) (hbuild : m.build = .ok ix)
    (hindex : b.index = ix) (targets : List EntityId) (ht : ∀ t ∈ targets, t ∈ ix.listed)
    (opts : Options) (hplain : b.nests opts = false) (c : Dot.Context) :
    (∃ is, Displays (b.packageTree targets opts c).1 (nodeOf (b.nodeStyle opts) c.nextId is) is
        (fun p d => d ∈ (ix.entity p).submodules) ∧
      (∀ i, i ∈ is ↔ ∃ t ∈ targets, Below ix t i) ∧
      ∀ p ∈ is, ∀ d ∈ (ix.entity p).submodules, d ∈ is) ∧
    IsForest (b.packageTree targets opts c).1 := by
  obtain ⟨hv, rfl⟩ := Model.build_eq_ok_iff.1 hbuild
  obtain ⟨log, hdraw⟩ := b.packageTree_eq_draw targets opts c
  have hplan : b.plan targets opts .packageTree = b.plainPlan targets opts :=
    if_neg (by rw [hplain]; exact Bool.false_ne_true)
  have hmem : ∀ i, i ∈ (b.plainPlan targets opts).entities ↔ ∃ t ∈ targets, Below m.index t i :=
    fun i => mem_sortByName.trans (mem_packagesBelow_iff hv hindex ht)
  have hlisted : ∀ i ∈ (b.plainPlan targets opts).entities, i ∈ m.index.listed := by
    intro i hi
    obtain ⟨t, htarget, hbelow⟩ := (hmem i).1 hi
    exact Model.listed_of_below hv (ht t htarget) hbelow
  have hdisplays : Displays ((b.plainPlan targets opts).draw c).1
      (nodeOf (b.nodeStyle opts) c.nextId (b.plainPlan targets opts).entities)
      (b.plainPlan targets opts).entities (fun p d => d ∈ (m.index.entity p).submodules) := by
    refine Plan.displays_draw (nodup_sortByName (nodup_reachable _ _)) fun i hi j _ => ?_
    rw [← hindex]
    exact mem_flatMap_pairs_iff (mem_sortByName.1 hi)
  rw [hdraw, hplan]
  refine ⟨⟨_, hdisplays, hmem, fun p hp d hd => ?_⟩, hdisplays.isForest ?_ ?_⟩
  · obtain ⟨t, htarget, hbelow⟩ := (hmem p).1 hp
    exact (hmem d).2 ⟨t, htarget, hbelow.tail hd⟩
  · exact fun p hp q hq d _ => eq_of_mem_submodules hv (hlisted p hp) (hlisted q hq)
  · exact fun i hi => not_transGen_submodules hv (hlisted i hi)

/-- One target is a submodule of the other. -/
theorem plainTree_displays_of_nested_targets :
    Model.sample.build = .ok Model.sample.index ∧
    (∀ t ∈ [1, 0], t ∈ Model.sample.index.listed) ∧
    (pageless Model.sample.index).nests { style := "tree" } = false ∧
    (∃ is, Displays ((pageless Model.sample.index).packageTree [1, 0] { style := "tree" } {}).1
        (nodeOf ((pageless Model.sample.index).nodeStyle { style := "tree" }) 0 is) is
        (fun p d => d ∈ (Model.sample.index.entity p).submodules) ∧
      (∀ i, i ∈ is ↔ ∃ t ∈ [1, 0], Below Model.sample.index t i) ∧
      ∀ p ∈ is, ∀ d ∈ (Model.sample.index.entity p).submodules, d ∈ is) ∧
    IsForest ((pageless Model.sample.index).packageTree [1, 0] { style := "tree" } {}).1 := by
  have hbuild : Model.sample.build = .ok Model.sample.index := by decide +kernel
  have ht : ∀ t ∈ [1, 0], t ∈ Model.sample.index.listed := by decide +kernel
  have hplain : (pageless Model.sample.index).nests { style := "tree" } = false := by decide
  exact ⟨hbuild, ht, hplain, plainTree_displays Model.sample Model.sample.index
    (pageless Model.sample.index) hbuild rfl [1, 0] ht { style := "tree" } hplain {}⟩

end Builder
end Diagram
end ApiDiagrams
