import ApiDiagrams.Diagram.Build
import ApiDiagrams.Proofs.Model.Consistency
import Mathlib.Data.List.Perm.Subperm
import Mathlib.Logic.Relation

/-!
# Breadth-first search

The search finds each entity that can be reached from the seeds, and finds it once. Its fuel is
enough because every step takes one entity from the queue and an entity enters the queue only when
it is seen for the first time. In a built index everything that an entity leads to is listed, so the
search stays among the listed entities.

* `Searches`, `searches_reachable`: the search empties its queue;
* `nodup_reachable`, `mem_reachable_iff`: what the search finds;
* `Model.mem_listed_of_mem_references`, `Model.resolve_mem_listed`: a built index is closed.
-/

namespace ApiDiagrams
namespace Diagram

variable {next : EntityId → List EntityId}

/-- The entities that a step of the search adds. -/
def unseen (next : EntityId → List EntityId) (i : EntityId) (seen : List EntityId) :
    List EntityId :=
  ((next i).filter fun j => !seen.contains j).eraseDups

theorem mem_unseen_iff {i j : EntityId} {seen : List EntityId} :
    j ∈ unseen next i seen ↔ j ∈ next i ∧ j ∉ seen := by
  simp [unseen, List.mem_eraseDups]

theorem nodup_append_unseen {i : EntityId} {seen : List EntityId} (h : seen.Nodup) :
    (seen ++ unseen next i seen).Nodup := by
  refine List.nodup_append.2 ⟨h, nodup_eraseDups _, ?_⟩
  rintro x hx y hy rfl
  exact (mem_unseen_iff.1 hy).2 hx

theorem nodup_reachFrom (fuel : ℕ) (queue : List EntityId) {seen : List EntityId}
    (h : seen.Nodup) : (reachFrom next fuel queue seen).Nodup := by
  induction fuel generalizing queue seen with
  | zero => exact h
  | succ fuel ih =>
    cases queue with
    | nil => exact h
    | cons i queue => exact ih _ (nodup_append_unseen h)

theorem subset_reachFrom (fuel : ℕ) (queue seen : List EntityId) :
    seen ⊆ reachFrom next fuel queue seen := by
  induction fuel generalizing queue seen with
  | zero => exact List.Subset.refl _
  | succ fuel ih =>
    cases queue with
    | nil => exact List.Subset.refl _
    | cons i queue => exact fun j hj => ih _ _ (List.mem_append_left _ hj)

/-- The search finds nothing outside a set that holds what it starts from and is closed. -/
theorem reachFrom_subset {p : EntityId → Prop} (hp : ∀ i, p i → ∀ j ∈ next i, p j) (fuel : ℕ)
    {queue seen : List EntityId} (hq : ∀ i ∈ queue, p i) (hs : ∀ i ∈ seen, p i) :
    ∀ i ∈ reachFrom next fuel queue seen, p i := by
  induction fuel generalizing queue seen with
  | zero => exact hs
  | succ fuel ih =>
    cases queue with
    | nil => exact hs
    | cons i queue =>
      have hnew : ∀ j ∈ unseen next i seen, p j := fun j hj =>
        hp i (hq i List.mem_cons_self) j (mem_unseen_iff.1 hj).1
      refine ih ?_ ?_
      · intro j hj
        rcases List.mem_append.1 hj with hj | hj
        · exact hq j (List.mem_cons_of_mem _ hj)
        · exact hnew j hj
      · intro j hj
        rcases List.mem_append.1 hj with hj | hj
        · exact hs j hj
        · exact hnew j hj

/-- The run of the search that goes on until the queue is empty, whatever number of steps that
takes: entities leave the queue one by one, and those that they lead to and that were not seen
before enter it. -/
inductive Searches (next : EntityId → List EntityId) :
    (queue seen found : List EntityId) → Prop
  | done {seen : List EntityId} : Searches next [] seen seen
  | step {i : EntityId} {queue seen found : List EntityId}
      (rest : Searches next (queue ++ unseen next i seen) (seen ++ unseen next i seen) found) :
      Searches next (i :: queue) seen found

/-- The fuel is enough to empty the queue, which gets longer only by as much as what is seen. -/
theorem searches_reachFrom (all : List EntityId) (hall : ∀ i ∈ all, ∀ j ∈ next i, j ∈ all)
    {fuel : ℕ} {queue seen : List EntityId} (hnodup : seen.Nodup) (hsub : ∀ i ∈ seen, i ∈ all)
    (hqueue : ∀ i ∈ queue, i ∈ seen) (hfuel : queue.length + all.length ≤ fuel + seen.length) :
    Searches next queue seen (reachFrom next fuel queue seen) := by
  induction fuel generalizing queue seen with
  | zero =>
    have hle : seen.length ≤ all.length := (hnodup.subperm hsub).length_le
    have hnil : queue = [] := List.length_eq_zero_iff.1 (by omega)
    subst hnil
    exact .done
  | succ fuel ih =>
    cases queue with
    | nil => exact .done
    | cons i queue =>
      have hi : i ∈ seen := hqueue i List.mem_cons_self
      refine .step (ih (nodup_append_unseen hnodup) ?_ ?_ ?_)
      · intro j hj
        rcases List.mem_append.1 hj with hj | hj
        · exact hsub j hj
        · exact hall i (hsub i hi) j (mem_unseen_iff.1 hj).1
      · intro j hj
        rcases List.mem_append.1 hj with hj | hj
        · exact List.mem_append_left _ (hqueue j (List.mem_cons_of_mem _ hj))
        · exact List.mem_append_right _ hj
      · simp only [List.length_cons, List.length_append] at hfuel ⊢
        omega

/-- The result is closed. What is seen but no longer in the queue has had its successors seen. -/
theorem Searches.closed {queue seen found : List EntityId} (h : Searches next queue seen found)
    (hdone : ∀ i ∈ seen, i ∈ queue ∨ ∀ j ∈ next i, j ∈ seen) :
    ∀ i ∈ found, ∀ j ∈ next i, j ∈ found := by
  induction h with
  | done =>
    intro i hi j hj
    exact (hdone i hi).resolve_left List.not_mem_nil j hj
  | @step i queue seen found rest ih =>
    refine ih fun k hk => ?_
    rcases List.mem_append.1 hk with hk | hk
    · by_cases hki : k = i
      · subst hki
        right
        intro j hj
        by_cases hseen : j ∈ seen
        · exact List.mem_append_left _ hseen
        · exact List.mem_append_right _ (mem_unseen_iff.2 ⟨hj, hseen⟩)
      · rcases hdone k hk with hk' | hk'
        · exact Or.inl (List.mem_append_left _ ((List.mem_cons.1 hk').resolve_left hki))
        · exact Or.inr fun j hj => List.mem_append_left _ (hk' j hj)
    · exact Or.inl (List.mem_append_right _ hk)

theorem nodup_reachable (size : ℕ) (seeds : List EntityId) :
    (reachable size next seeds).Nodup := nodup_reachFrom _ _ (nodup_eraseDups _)

/-- The search finds nothing outside a closed set that holds the seeds. -/
theorem reachable_subset {p : EntityId → Prop} (hp : ∀ i, p i → ∀ j ∈ next i, p j) (size : ℕ)
    {seeds : List EntityId} (hs : ∀ i ∈ seeds, p i) : ∀ i ∈ reachable size next seeds, p i :=
  reachFrom_subset hp _ hs fun i hi => hs i (List.mem_eraseDups.1 hi)

/-- Among the numbers below `size`, the search empties its queue. -/
theorem searches_reachable {size : ℕ} {seeds : List EntityId} (hseeds : ∀ i ∈ seeds, i < size)
    (hnext : ∀ i, i < size → ∀ j ∈ next i, j < size) :
    Searches next seeds seeds.eraseDups (reachable size next seeds) := by
  refine searches_reachFrom (List.range size) ?_ (nodup_eraseDups _) ?_ ?_ ?_
  · intro i hi j hj
    exact List.mem_range.2 (hnext i (List.mem_range.1 hi) j hj)
  · exact fun i hi => List.mem_range.2 (hseeds i (List.mem_eraseDups.1 hi))
  · exact fun i hi => List.mem_eraseDups.2 hi
  · rw [List.length_range]
    omega

/-- Among the numbers below `size`, the search finds what can be reached from the seeds. -/
theorem mem_reachable_iff {size : ℕ} {seeds : List EntityId} (hseeds : ∀ i ∈ seeds, i < size)
    (hnext : ∀ i, i < size → ∀ j ∈ next i, j < size) {j : EntityId} :
    j ∈ reachable size next seeds ↔
      ∃ i ∈ seeds, Relation.ReflTransGen (fun i j => j ∈ next i) i j := by
  constructor
  · revert j
    apply reachable_subset
    · rintro i ⟨s, hs, hreach⟩ j hj
      exact ⟨s, hs, hreach.tail hj⟩
    · exact fun i hi => ⟨i, hi, .refl⟩
  · rintro ⟨i, hi, hreach⟩
    induction hreach with
    | refl => exact subset_reachFrom _ _ _ (List.mem_eraseDups.2 hi)
    | tail _ hj ih =>
      exact (searches_reachable hseeds hnext).closed
        (fun i hi => Or.inl (List.mem_eraseDups.1 hi)) _ ih _ hj

end Diagram

/-! ### Built indexes are closed -/

namespace Model

variable {m : Model}

theorem mem_listed_iff_lt (h : m.Valid) {i : EntityId} :
    i ∈ m.index.listed ↔ i < m.index.entities.size := by
  rw [(tabulates_index h).listed, (tabulates_index h).size_entities, List.mem_range]

theorem mem_listed_of_mem_references (h : m.Valid) {i j : EntityId} (hi : i ∈ m.index.listed)
    (hj : j ∈ references m.index i) : j ∈ m.index.listed :=
  (((consistent_index h).lookup _ _).1 ((consistent_index h).registered i hi j hj)).1

theorem aliasOf_mem_listed (h : m.Valid) {i v : EntityId} (hi : i ∈ m.index.listed)
    (hv : m.index.aliasOf i = some v) : v ∈ m.index.listed := by
  refine mem_listed_of_mem_references h hi ?_
  unfold Index.aliasOf at hv
  split_ifs at hv
  simp [references, hv]

/-- What a variable of the index stands for is in the index. -/
theorem resolve_mem_listed (h : m.Valid) {i : EntityId} (hi : i ∈ m.index.listed) :
    m.index.resolve i ∈ m.index.listed := by
  suffices hfrom : ∀ fuel seen, m.index.resolveFrom fuel seen i ∈ m.index.listed from hfrom _ _
  intro fuel
  induction fuel generalizing i with
  | zero => exact fun _ => hi
  | succ fuel ih =>
    intro seen
    unfold Index.resolveFrom
    split
    · rename_i v hv
      split_ifs
      · exact hi
      · exact ih (aliasOf_mem_listed h hi hv) _
    · exact hi

end Model
end ApiDiagrams
