import ApiDiagrams.Proofs.Diagram.Plan
import ApiDiagrams.Proofs.Diagram.Reach

/-!
# Packages and what lies below them

A package tree shows packages with all their submodules, and shows them in one of two ways: as a
tree, which is searched along the submodules, or as nested boxes, one for each package whose name
lies in no other one of the list. In a built index a submodule is named like its package with one
more identifier, so packages form a forest, and no box is cut off and none holds an entity twice.

* `Below`: a module is a submodule of a package, of one of its submodules, and so on;
* `Model.prefix_of_below`, `Model.below_of_prefix`: what names say about it;
* `Box.entities`, `Box.mem_entities_iff`: a box holds what lies below its package;
* `Builder.nestedModules`: the modules in the boxes of a nested tree, each once;
* `Builder.nestedModules_iff_packagesBelow`: when these are the modules of the plain tree.
-/

namespace ApiDiagrams
namespace Diagram

/-- A module is the package itself, one of its submodules, a submodule of these, and so on. -/
def Below (ix : Index) : EntityId → EntityId → Prop :=
  Relation.ReflTransGen fun i j => j ∈ (ix.entity i).submodules

end Diagram

open Diagram

/-! ### Names -/

namespace Model

variable {m : Model}

theorem prefix_dropLast {α : Type} {a b : List α} (h : a <+: b) (hne : a ≠ b) :
    a <+: b.dropLast := by
  have hlt : a.length < b.length :=
    lt_of_le_of_ne h.length_le fun hlen => hne (h.eq_of_length hlen)
  refine List.prefix_of_prefix_length_le h (List.dropLast_prefix b) ?_
  rw [List.length_dropLast]
  omega

theorem nameOf_injOn (h : m.Valid) {i j : EntityId} (hi : i ∈ m.index.listed)
    (hj : j ∈ m.index.listed) (hparts : (m.index.nameOf i).parts = (m.index.nameOf j).parts) :
    i = j :=
  List.inj_on_of_nodup_map (consistent_index h).distinct hi hj (Name.eq_of_parts hparts)

theorem parts_nameOf_ne_nil (h : m.Valid) {i : EntityId} (hi : i ∈ m.index.listed) :
    (m.index.nameOf i).parts ≠ [] := by
  intro hnil
  refine ((consistent_index h).dotted i hi).ne_empty ?_
  rw [Name.text, hnil]
  rfl

/-- A submodule is a module named like its package, with one more identifier. -/
theorem of_mem_submodules (h : m.Valid) {p d : EntityId} (hp : p ∈ m.index.listed)
    (hd : d ∈ (m.index.entity p).submodules) : d ∈ m.index.listed ∧ BothModules m.index d p ∧
      (m.index.nameOf p).parts = (m.index.nameOf d).parts.dropLast ∧
      (m.index.nameOf p).parts.length < (m.index.nameOf d).parts.length := by
  have hcontains : Contains m.index p d := ⟨hp, List.mem_append_left _ hd⟩
  obtain ⟨hlisted, hlies⟩ := liesIn_of_contains h hcontains
  refine ⟨hlisted, ?_, congrArg Name.parts hlies, length_lt_of_contains h hcontains⟩
  have hpos := List.count_pos_iff.2 hd
  rw [(consistent_index h).submodules d hlisted p hp] at hpos
  by_contra hboth
  simp [hboth] at hpos

theorem listed_of_below (h : m.Valid) {p d : EntityId} (hp : p ∈ m.index.listed)
    (hd : Below m.index p d) : d ∈ m.index.listed := by
  induction hd with
  | refl => exact hp
  | tail _ hstep ih => exact (of_mem_submodules h ih hstep).1

/-- What lies below a package has a name that starts with that of the package. -/
theorem prefix_of_below (h : m.Valid) {p d : EntityId} (hp : p ∈ m.index.listed)
    (hd : Below m.index p d) :
    (m.index.nameOf p).parts <+: (m.index.nameOf d).parts := by
  induction hd with
  | refl => exact List.prefix_rfl
  | tail hbelow hstep ih =>
    obtain ⟨-, -, hparts, -⟩ := of_mem_submodules h (listed_of_below h hp hbelow) hstep
    rw [hparts] at ih
    exact ih.trans (List.dropLast_prefix _)

/-- The way from a package to what lies below it leads through every entity named in between. -/
theorem below_of_prefix (h : m.Valid) {p q d : EntityId} (hp : p ∈ m.index.listed)
    (hq : q ∈ m.index.listed) (hd : Below m.index p d)
    (hpq : (m.index.nameOf p).parts <+: (m.index.nameOf q).parts)
    (hqd : (m.index.nameOf q).parts <+: (m.index.nameOf d).parts) : Below m.index q d := by
  induction hd with
  | refl =>
    have hparts := hpq.eq_of_length (le_antisymm hpq.length_le hqd.length_le)
    rw [nameOf_injOn h hp hq hparts]
    exact Relation.ReflTransGen.refl
  | @tail e d hbelow hstep ih =>
    have he := listed_of_below h hp hbelow
    obtain ⟨hlisted, -, hparts, -⟩ := of_mem_submodules h he hstep
    by_cases heq : (m.index.nameOf q).parts = (m.index.nameOf d).parts
    · rw [nameOf_injOn h hq hlisted heq]
      exact Relation.ReflTransGen.refl
    · -- what starts a name and is shorter starts the name of its package already
      have hqe : (m.index.nameOf q).parts <+: (m.index.nameOf e).parts := by
        rw [hparts]
        exact prefix_dropLast hqd heq
      exact (ih hqe).tail hstep

/-- The number of entities with longer names. -/
def longer (ix : Index) (i : EntityId) : ℕ :=
  ix.listed.countP fun j => (ix.nameOf i).parts.length < (ix.nameOf j).parts.length

theorem longer_lt_of_mem_submodules (h : m.Valid) {p d : EntityId} (hp : p ∈ m.index.listed)
    (hd : d ∈ (m.index.entity p).submodules) : longer m.index d < longer m.index p := by
  obtain ⟨hlisted, -, -, hlen⟩ := of_mem_submodules h hp hd
  obtain ⟨before, after, hsplit⟩ := List.append_of_mem hlisted
  have hle : ∀ l : List EntityId,
      (l.countP fun j => (m.index.nameOf d).parts.length < (m.index.nameOf j).parts.length) ≤
        l.countP fun j => (m.index.nameOf p).parts.length < (m.index.nameOf j).parts.length := by
    intro l
    refine List.countP_mono_left fun j _ hj => ?_
    simp only [decide_eq_true_eq] at hj ⊢
    omega
  -- the submodule itself counts for its package only
  have hbefore := hle before
  have hafter := hle after
  unfold longer
  rw [hsplit, List.countP_append, List.countP_append, List.countP_cons_of_neg (by simp),
    List.countP_cons_of_pos (by simpa using hlen)]
  omega

theorem longer_lt_size (h : m.Valid) (i : EntityId) :
    longer m.index i < m.index.entities.size + 1 := by
  have hle : longer m.index i ≤ m.index.listed.length := List.countP_le_length
  rw [(tabulates_index h).listed, List.length_range, ← (tabulates_index h).size_entities] at hle
  omega

end Model

/-! ### Boxes -/

namespace Diagram
namespace Box

/-- The entities in a box, the package first and then the contents of the boxes in it. -/
def entities : Box → List EntityId
  | .node i inner => i :: (inner.map entities).flatten

@[simp]
theorem entities_node (i : EntityId) (inner : List Box) :
    (Box.node i inner).entities = i :: inner.flatMap entities := by
  rw [entities, List.flatMap_def]

variable {m : Model}

theorem entities_of_zero (ix : Index) (i : EntityId) : (Box.of ix 0 i).entities = [i] := by
  simp [of]

theorem of_succ (h : m.Valid) (fuel : ℕ) {i : EntityId} (hi : i ∈ m.index.listed) :
    Box.of m.index (fuel + 1) i =
      .node i ((m.index.entity i).submodules.map (Box.of m.index fuel)) := by
  by_cases hpackage : (m.index.entity i).isPackage = true
  · simp [of, hpackage]
  · -- only packages have submodules
    have hnil : (m.index.entity i).submodules = [] := by
      by_contra hne
      exact hpackage ((Model.consistent_index h).packages i hi hne)
    simp [of, hpackage, hnil]

theorem entities_of_succ (h : m.Valid) (fuel : ℕ) {i : EntityId} (hi : i ∈ m.index.listed) :
    (Box.of m.index (fuel + 1) i).entities =
      i :: (m.index.entity i).submodules.flatMap fun j => (Box.of m.index fuel j).entities := by
  rw [of_succ h fuel hi, entities_node, List.flatMap_map]

theorem below_of_mem_entities (h : m.Valid) {fuel : ℕ} {i j : EntityId} (hi : i ∈ m.index.listed)
    (hj : j ∈ (Box.of m.index fuel i).entities) : Below m.index i j := by
  induction fuel generalizing i with
  | zero =>
    rw [entities_of_zero, List.mem_singleton] at hj
    rw [hj]
    exact Relation.ReflTransGen.refl
  | succ fuel ih =>
    rw [entities_of_succ h fuel hi] at hj
    rcases List.mem_cons.1 hj with rfl | hj
    · exact Relation.ReflTransGen.refl
    · obtain ⟨d, hd, hj⟩ := List.mem_flatMap.1 hj
      exact Relation.ReflTransGen.head hd (ih (Model.of_mem_submodules h hi hd).1 hj)

/-- No box is cut off: names get longer inwards, and only so many names are longer. -/
theorem mem_entities_of_below (h : m.Valid) {fuel : ℕ} {i j : EntityId}
    (hi : i ∈ m.index.listed) (hfuel : Model.longer m.index i < fuel) (hj : Below m.index i j) :
    j ∈ (Box.of m.index fuel i).entities := by
  induction fuel generalizing i with
  | zero => omega
  | succ fuel ih =>
    rw [entities_of_succ h fuel hi]
    rcases Relation.ReflTransGen.cases_head hj with rfl | ⟨d, hd, hj⟩
    · exact List.mem_cons_self
    · have hlt := Model.longer_lt_of_mem_submodules h hi hd
      have hlisted := (Model.of_mem_submodules h hi hd).1
      exact List.mem_cons_of_mem _ (List.mem_flatMap.2 ⟨d, hd, ih hlisted (by omega) hj⟩)

/-- A box holds no entity twice: what lies below different submodules is named differently. -/
theorem nodup_entities (h : m.Valid) (fuel : ℕ) {i : EntityId} (hi : i ∈ m.index.listed) :
    (Box.of m.index fuel i).entities.Nodup := by
  induction fuel generalizing i with
  | zero =>
    rw [entities_of_zero]
    exact List.nodup_singleton i
  | succ fuel ih =>
    rw [entities_of_succ h fuel hi, List.nodup_cons, List.nodup_flatMap]
    refine ⟨?_, fun d hd => ih (Model.of_mem_submodules h hi hd).1, ?_⟩
    · intro hmem
      obtain ⟨d, hd, hmem⟩ := List.mem_flatMap.1 hmem
      obtain ⟨hlisted, -, -, hlen⟩ := Model.of_mem_submodules h hi hd
      have hle := (Model.prefix_of_below h hlisted (below_of_mem_entities h hlisted hmem)).length_le
      omega
    · have hnodup : (m.index.entity i).submodules.Nodup := by
        refine List.nodup_iff_count_le_one.2 fun d => ?_
        have hle := (Model.consistent_index h).once i hi d
        rw [List.count_append] at hle
        omega
      refine hnodup.imp_of_mem fun {d e} hd he hne x hxd hxe => hne ?_
      obtain ⟨hdl, -, hdp, hdlen⟩ := Model.of_mem_submodules h hi hd
      obtain ⟨hel, -, hep, helen⟩ := Model.of_mem_submodules h hi he
      have hdx := Model.prefix_of_below h hdl (below_of_mem_entities h hdl hxd)
      have hex := Model.prefix_of_below h hel (below_of_mem_entities h hel hxe)
      have hlen : (m.index.nameOf d).parts.length = (m.index.nameOf e).parts.length := by
        have hd' := congrArg List.length hdp
        have he' := congrArg List.length hep
        rw [List.length_dropLast] at hd' he'
        omega
      have hprefix := List.prefix_of_prefix_length_le hdx hex hlen.le
      exact Model.nameOf_injOn h hdl hel (List.IsPrefix.eq_of_length hprefix hlen)

theorem mem_entities_iff (h : m.Valid) {i j : EntityId} (hi : i ∈ m.index.listed) :
    j ∈ (Box.of m.index (m.index.entities.size + 1) i).entities ↔ Below m.index i j :=
  ⟨below_of_mem_entities h hi, mem_entities_of_below h hi (Model.longer_lt_size h i)⟩

end Box

/-! ### The outermost packages -/

namespace Builder

variable {m : Model} {b : Builder} {targets : List EntityId}

/-- The modules in the boxes of a nested tree, box by box. -/
def nestedModules (b : Builder) (targets : List EntityId) : List EntityId :=
  (b.outermost targets).flatMap fun p =>
    (Box.of b.index (b.index.entities.size + 1) p).entities

theorem dominates_iff (h : m.Valid) {q p : EntityId} (hq : q ∈ m.index.listed) :
    (m.index.nameOf q).dominates (m.index.nameOf p) = true ↔
      (m.index.nameOf q).parts <+: (m.index.nameOf p).parts := by
  have hne := Model.parts_nameOf_ne_nil h hq
  simp [Name.dominates, hne]

theorem mem_outermost_iff (h : m.Valid) (hindex : b.index = m.index)
    (ht : ∀ t ∈ targets, t ∈ m.index.listed) {p : EntityId} :
    p ∈ b.outermost targets ↔ p ∈ targets ∧ ∀ q ∈ targets,
      (m.index.nameOf q).parts <+: (m.index.nameOf p).parts → q = p := by
  unfold outermost isDominated
  rw [List.mem_filter, hindex]
  refine and_congr_right fun _ => ?_
  simp only [Bool.not_eq_true', List.any_eq_false, Bool.and_eq_true, decide_eq_true_eq, not_and]
  refine forall₂_congr fun q hq => ?_
  rw [dominates_iff h (ht q hq)]
  exact ⟨fun hnot hprefix => by_contra fun hne => hnot hne hprefix,
    fun heq hne hprefix => hne (heq hprefix)⟩

theorem listed_of_mem_outermost (h : m.Valid) (hindex : b.index = m.index)
    (ht : ∀ t ∈ targets, t ∈ m.index.listed) {p : EntityId} (hp : p ∈ b.outermost targets) :
    p ∈ m.index.listed := ht p ((mem_outermost_iff h hindex ht).1 hp).1

/-- Every target lies in an outermost one, judged by their names. -/
theorem exists_mem_outermost (h : m.Valid) (hindex : b.index = m.index)
    (ht : ∀ t ∈ targets, t ∈ m.index.listed) {t : EntityId} (htarget : t ∈ targets) :
    ∃ p ∈ b.outermost targets, (m.index.nameOf p).parts <+: (m.index.nameOf t).parts := by
  induction hn : (m.index.nameOf t).parts.length using Nat.strong_induction_on generalizing t with
  | _ n ih =>
    by_cases hout : t ∈ b.outermost targets
    · exact ⟨t, hout, List.prefix_rfl⟩
    · -- another target starts the name of this one, and is shorter
      have hother : ∃ q ∈ targets, (m.index.nameOf q).parts <+: (m.index.nameOf t).parts ∧
          q ≠ t := by
        by_contra hnone
        refine hout ((mem_outermost_iff h hindex ht).2 ⟨htarget, fun q hq hprefix => ?_⟩)
        by_contra hne
        exact hnone ⟨q, hq, hprefix, hne⟩
      obtain ⟨q, hq, hprefix, hne⟩ := hother
      have hlt : (m.index.nameOf q).parts.length < n := by
        refine hn ▸ lt_of_le_of_ne hprefix.length_le fun hlen => hne ?_
        exact Model.nameOf_injOn h (ht q hq) (ht t htarget)
          (List.IsPrefix.eq_of_length hprefix hlen)
      obtain ⟨p, hp, hpq⟩ := ih _ hlt hq rfl
      exact ⟨p, hp, hpq.trans hprefix⟩

/-- An outermost package is the only one that a name starts with. -/
theorem eq_of_mem_outermost (h : m.Valid) (hindex : b.index = m.index)
    (ht : ∀ t ∈ targets, t ∈ m.index.listed) {p q : EntityId} {parts : List String}
    (hp : p ∈ b.outermost targets) (hq : q ∈ b.outermost targets)
    (hpx : (m.index.nameOf p).parts <+: parts) (hqx : (m.index.nameOf q).parts <+: parts) :
    p = q := by
  obtain ⟨hpt, hpo⟩ := (mem_outermost_iff h hindex ht).1 hp
  obtain ⟨hqt, hqo⟩ := (mem_outermost_iff h hindex ht).1 hq
  rcases List.prefix_or_prefix_of_prefix hpx hqx with hle | hle
  · exact hqo p hpt hle
  · exact (hpo q hqt hle).symm

/-! ### The modules of both trees -/

theorem mem_nestedModules_iff (h : m.Valid) (hindex : b.index = m.index)
    (ht : ∀ t ∈ targets, t ∈ m.index.listed) {i : EntityId} :
    i ∈ b.nestedModules targets ↔ ∃ p ∈ b.outermost targets, Below m.index p i := by
  unfold nestedModules
  rw [List.mem_flatMap, hindex]
  refine exists_congr fun p => and_congr_right fun hp => ?_
  exact Box.mem_entities_iff h (listed_of_mem_outermost h hindex ht hp)

/-- The nested tree shows no module twice. -/
theorem nodup_nestedModules (h : m.Valid) (hindex : b.index = m.index)
    (ht : ∀ t ∈ targets, t ∈ m.index.listed) (hnodup : targets.Nodup) :
    (b.nestedModules targets).Nodup := by
  unfold nestedModules
  rw [List.nodup_flatMap, hindex]
  refine ⟨fun p hp => Box.nodup_entities h _ (listed_of_mem_outermost h hindex ht hp), ?_⟩
  refine (hnodup.filter _).imp_of_mem fun {p q} hp hq hne x hpx hqx => hne ?_
  have hpl := listed_of_mem_outermost h hindex ht hp
  have hql := listed_of_mem_outermost h hindex ht hq
  exact eq_of_mem_outermost h hindex ht hp hq
    (Model.prefix_of_below h hpl (Box.below_of_mem_entities h hpl hpx))
    (Model.prefix_of_below h hql (Box.below_of_mem_entities h hql hqx))

/-- The plain tree shows the targets and all that lies below them. -/
theorem mem_packagesBelow_iff (h : m.Valid) (hindex : b.index = m.index)
    (ht : ∀ t ∈ targets, t ∈ m.index.listed) {i : EntityId} :
    i ∈ b.packagesBelow targets ↔ ∃ t ∈ targets, Below m.index t i := by
  unfold packagesBelow
  rw [hindex]
  refine mem_reachable_iff (fun t htarget => (Model.mem_listed_iff_lt h).1 (ht t htarget)) ?_
  intro p hp d hd
  exact (Model.mem_listed_iff_lt h).1
    (Model.of_mem_submodules h ((Model.mem_listed_iff_lt h).2 hp) hd).1

/-- A target that lies in another one by its name lies below it. -/
def Gapless (ix : Index) (targets : List EntityId) : Prop :=
  ∀ q ∈ targets, ∀ t ∈ targets, (ix.nameOf q).dominates (ix.nameOf t) = true → Below ix q t

/-- The two trees show the same modules exactly when no target lies in another one by its name
only. -/
theorem nestedModules_iff_packagesBelow (h : m.Valid) (hindex : b.index = m.index)
    (ht : ∀ t ∈ targets, t ∈ m.index.listed) :
    (∀ i, i ∈ b.nestedModules targets ↔ i ∈ b.packagesBelow targets) ↔
      Gapless m.index targets := by
  simp only [mem_nestedModules_iff h hindex ht, mem_packagesBelow_iff h hindex ht]
  constructor
  · intro hsame q hq t htarget hdominates
    have hqt := (dominates_iff h (ht q hq)).1 hdominates
    obtain ⟨p, hp, hbelow⟩ := (hsame t).2 ⟨t, htarget, Relation.ReflTransGen.refl⟩
    obtain ⟨hpt, hpo⟩ := (mem_outermost_iff h hindex ht).1 hp
    have hpl := ht p hpt
    -- the outermost package starts the name of `q` too, so the way to `t` leads through `q`
    rcases List.prefix_or_prefix_of_prefix (Model.prefix_of_below h hpl hbelow) hqt with hle | hle
    · exact Model.below_of_prefix h hpl (ht q hq) hbelow hle hqt
    · rw [hpo q hq hle]
      exact hbelow
  · intro hgapless i
    constructor
    · rintro ⟨p, hp, hbelow⟩
      exact ⟨p, ((mem_outermost_iff h hindex ht).1 hp).1, hbelow⟩
    · rintro ⟨t, htarget, hbelow⟩
      obtain ⟨p, hp, hprefix⟩ := exists_mem_outermost h hindex ht htarget
      obtain ⟨hpt, -⟩ := (mem_outermost_iff h hindex ht).1 hp
      exact ⟨p, hp,
        (hgapless p hpt t htarget ((dominates_iff h (ht p hpt)).2 hprefix)).trans hbelow⟩

end Builder
end Diagram
end ApiDiagrams
