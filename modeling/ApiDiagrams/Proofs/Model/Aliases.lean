import ApiDiagrams.Proofs.Index.Chains
import ApiDiagrams.Proofs.Model.Order

/-!
# Variables of a built index

A model is built only if no variable of its index leads back to itself through others. The check
looks at the index before entities are put in their places and calls are recorded, neither of which
changes a variable or its value.

* `aliasOf_index`: variables lead where they led when the check looked at them;
* `not_cycles_index`: no chain of a built index comes back;
* `resolve_canonical`: what entities resolve to, in every index and in a built one.
-/

namespace ApiDiagrams
namespace Model

variable {m : Model}

theorem aliasOf_index (m : Model) : m.index.aliasOf = m.linkedIndex.aliasOf := by
  funext i
  have hindex : m.index.entity i = (m.names[i]?.map m.entity).getD default := by
    simp [Index.entity, index]
  have hlinked : m.linkedIndex.entity i = (m.names[i]?.map m.linkedEntity).getD default := by
    simp [Index.entity, linkedIndex]
  rw [Index.aliasOf, Index.aliasOf, hindex, hlinked]
  cases m.names[i]? with
  | none => rfl
  | some n => rfl

theorem chain_index (m : Model) (i : EntityId) (k : ℕ) :
    m.index.chain i k = m.linkedIndex.chain i k := by
  induction k with
  | zero => rfl
  | succ k ih => rw [Index.chain, Index.chain, ih, aliasOf_index]

/-- No chain of a built index comes back to an entity that it has passed. -/
theorem not_cycles_index (h : m.Valid) (i : EntityId) : ¬ m.index.Cycles i := by
  simp only [Index.Cycles, chain_index]
  change ¬ m.linkedIndex.Cycles i
  intro hcycles
  -- an entity whose chain comes back is a variable, so it is listed and was looked at
  obtain ⟨v, hv⟩ := Index.exists_aliasOf hcycles.isAlias
  have ht := tabulates_linkedIndex h.declarable
  have hlisted : i ∈ m.linkedIndex.listed := by
    rw [ht.listed, List.mem_range, ← ht.size_entities]
    exact Index.lt_size_of_aliasOf hv
  have hchecked := checkAliases_eq_ok_iff.1 h.noAliasCycle i hlisted
  rw [(Index.canonical _ i).isAliasCycle_iff.2 hcycles] at hchecked
  cases hchecked

/-- What an entity resolves to, in every index; and in a built index nothing resolves to a variable
whose value is known, so that resolving a second time changes nothing. -/
theorem resolve_canonical (ix : Index) (i : EntityId) :
    ix.Canonical i ∧ ∀ m : Model, m.build = .ok ix →
      ¬ ix.IsAlias (ix.resolve i) ∧ ix.resolve (ix.resolve i) = ix.resolve i := by
  refine ⟨Index.canonical ix i, fun m hbuild => ?_⟩
  obtain ⟨hvalid, rfl⟩ := build_eq_ok_iff.1 hbuild
  obtain ⟨hend, -⟩ := (Index.canonical m.index i).ended (not_cycles_index hvalid i)
  exact ⟨hend, Index.resolve_of_not_isAlias hend⟩

/-- Two variables in a row, the second of which stands for a class. -/
def twoVariables : Model where
  entities :=
    [{ name := "m.v", kind := "variable", value := "m.w" },
     { name := "m.w", kind := "variable", value := "m.C" },
     { name := "m.C", kind := "class" }]

theorem resolve_canonical_of_two_variables :
    twoVariables.build = .ok twoVariables.index ∧ twoVariables.index.resolve 0 = 2 ∧
      ¬ twoVariables.index.IsAlias (twoVariables.index.resolve 0) ∧
      twoVariables.index.resolve (twoVariables.index.resolve 0) = twoVariables.index.resolve 0 := by
  have hbuild : twoVariables.build = .ok twoVariables.index := by decide +kernel
  exact ⟨hbuild, by decide +kernel,
    (resolve_canonical twoVariables.index 0).2 twoVariables hbuild⟩

end Model
end ApiDiagrams
