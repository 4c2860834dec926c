import ApiDiagrams.Index
import Mathlib.Data.List.Perm.Subperm
import Mathlib.Logic.Relation
import Mathlib.Tactic

/-!
# Chains of variables

A variable leads to its value, which may be a variable again, and the chain of an entity goes on as
long as it stands at a variable whose value is known. The values may have been set by hand, so that
a chain can come back to an entity that it has passed, be it the first one or a later one. It cannot
go on to new entities forever, because only the entities that the index holds can be variables.

* `Follows`: the chain from an entity leads to another one;
* `chain`, `Cycles`: the entities of a chain by number, and a chain that comes back;
* `Walks`, `Seeks`: following variables, and looking for a cycle, with no bound on the steps;
* `Way`, `exists_way`: a chain up to the last entity behind which there is no new one;
* `Way.resolveFrom_eq`, `Way.cyclesFrom_eq`: the bounded searches reach the end of the way;
* `Way.cycles_iff`: the chain comes back exactly when its way ends at a variable with a value;
* `follows_resolve`, `resolve_eq_iff`: what an entity resolves to is on its chain, and it is the end
  of the chain if there is one;
* `Canonical`, `canonical`: what an entity resolves to, for every index.
-/

namespace ApiDiagrams
namespace Index

variable {ix : Index} {i s v : EntityId} {b : Bool} {marked passed rest : List EntityId}

/-- The values of variables lead from one entity to the other. -/
def Follows (ix : Index) : EntityId → EntityId → Prop :=
  Relation.ReflTransGen fun i j => ix.aliasOf i = some j

/-- A variable whose value is known. -/
def IsAlias (ix : Index) (i : EntityId) : Prop :=
  (ix.entity i).kind = .variable ∧ (ix.entity i).value ≠ none

/-- The entities on the chain of an entity, by number. -/
def chain (ix : Index) (i : EntityId) : ℕ → Option EntityId
  | 0 => some i
  | k + 1 => (ix.chain i k).bind ix.aliasOf

/-- The chain of the entity comes back to an entity that it has passed. -/
def Cycles (ix : Index) (i : EntityId) : Prop :=
  ∃ a b x, a < b ∧ ix.chain i a = some x ∧ ix.chain i b = some x

/-! ### The searches without a bound -/

/-- Following variables: from `i`, when the entities of `marked` are not to be entered again, the
search stops at `s`. Only the entities that were left are marked, not the one where it stands. -/
inductive Walks (ix : Index) : (marked : List EntityId) → (i s : EntityId) → Prop
  | stop {marked : List EntityId} {i : EntityId}
      (blocked : ∀ v, ix.aliasOf i = some v → v ∈ marked) : Walks ix marked i i
  | follow {marked : List EntityId} {i v s : EntityId} (value : ix.aliasOf i = some v)
      (fresh : v ∉ marked) (further : Walks ix (i :: marked) v s) : Walks ix marked i s

/-- Looking for a cycle: from `i`, when the entities of `marked` were visited, the search answers
`b`. -/
inductive Seeks (ix : Index) : (marked : List EntityId) → (i : EntityId) → (b : Bool) → Prop
  | other {marked : List EntityId} {i : EntityId} (kind : (ix.entity i).kind ≠ .variable) :
      Seeks ix marked i false
  | back {marked : List EntityId} {i : EntityId} (kind : (ix.entity i).kind = .variable)
      (visited : i ∈ marked) : Seeks ix marked i true
  | unknown {marked : List EntityId} {i : EntityId} (kind : (ix.entity i).kind = .variable)
      (fresh : i ∉ marked) (value : (ix.entity i).value = none) : Seeks ix marked i false
  | follow {marked : List EntityId} {i v : EntityId} {b : Bool}
      (kind : (ix.entity i).kind = .variable) (fresh : i ∉ marked)
      (value : (ix.entity i).value = some v) (further : Seeks ix (i :: marked) v b) :
      Seeks ix marked i b

theorem Walks.unique {s' : EntityId} (h : ix.Walks marked i s) (h' : ix.Walks marked i s') :
    s = s' := by
  induction h with
  | stop blocked =>
    cases h' with
    | stop => rfl
    | follow value fresh => exact absurd (blocked _ value) fresh
  | follow value fresh _ ih =>
    cases h' with
    | stop blocked => exact absurd (blocked _ value) fresh
    | follow value' _ further' =>
      obtain rfl := Option.some.inj (value.symm.trans value')
      exact ih further'

theorem Seeks.unique {b' : Bool} (h : ix.Seeks marked i b) (h' : ix.Seeks marked i b') :
    b = b' := by
  induction h with
  | other kind =>
    cases h' with
    | other => rfl
    | back kind' | unknown kind' | follow kind' => exact absurd kind' kind
  | back kind visited =>
    cases h' with
    | other kind' => exact absurd kind kind'
    | back => rfl
    | unknown _ fresh | follow _ fresh => exact absurd visited fresh
  | unknown kind fresh value =>
    cases h' with
    | other | unknown => rfl
    | back _ visited => exact absurd visited fresh
    | follow _ _ value' =>
      rw [value] at value'
      cases value'
  | follow kind fresh value _ ih =>
    cases h' with
    | other kind' => exact absurd kind kind'
    | back _ visited => exact absurd visited fresh
    | unknown _ _ value' =>
      rw [value] at value'
      cases value'
    | follow _ _ value' further' =>
      obtain rfl := Option.some.inj (value.symm.trans value')
      exact ih further'

/-! ### Single steps -/

theorem aliasOf_eq_some_iff : ix.aliasOf i = some v ↔
    (ix.entity i).kind = .variable ∧ (ix.entity i).value = some v := by
  unfold aliasOf
  by_cases hk : (ix.entity i).kind = .variable <;> simp [hk]

theorem aliasOf_eq_none_iff : ix.aliasOf i = none ↔ ¬ ix.IsAlias i := by
  unfold aliasOf IsAlias
  by_cases hk : (ix.entity i).kind = .variable <;> simp [hk]

theorem aliasOf_eq_none_of_kind (h : (ix.entity i).kind ≠ .variable) : ix.aliasOf i = none :=
  if_neg h

theorem isAlias_of_aliasOf (h : ix.aliasOf i = some v) : ix.IsAlias i := by
  by_contra hnot
  rw [aliasOf_eq_none_iff.2 hnot] at h
  cases h

theorem exists_aliasOf (h : ix.IsAlias i) : ∃ v, ix.aliasOf i = some v := by
  rw [← Option.ne_none_iff_exists', ne_eq, aliasOf_eq_none_iff]
  exact not_not.2 h

/-- Only the entities of the index can be variables. -/
theorem lt_size_of_aliasOf (h : ix.aliasOf i = some v) : i < ix.entities.size := by
  by_contra hlt
  have hdefault : ix.entity i = default := by
    rw [entity, Array.getD_eq_getD_getElem?, Array.getElem?_eq_none (not_lt.1 hlt)]
    rfl
  have hk := (aliasOf_eq_some_iff.1 h).1
  rw [hdefault] at hk
  cases hk

theorem length_le_of_isAlias (hnodup : passed.Nodup) (h : ∀ x ∈ passed, ix.IsAlias x) :
    passed.length ≤ ix.entities.size := by
  have hsub : passed ⊆ List.range ix.entities.size := by
    intro x hx
    obtain ⟨v, hv⟩ := exists_aliasOf (h x hx)
    exact List.mem_range.2 (lt_size_of_aliasOf hv)
  simpa using (hnodup.subperm hsub).length_le

theorem chain_succ' (ix : Index) (i : EntityId) (k : ℕ) :
    ix.chain i (k + 1) = (ix.aliasOf i).bind fun v => ix.chain v k := by
  induction k with
  | zero => cases h : ix.aliasOf i <;> simp [chain, h]
  | succ k ih =>
    rw [chain, ih, Option.bind_assoc]
    rfl

/-- A chain that has ended does not go on. -/
theorem chain_eq_none {k l : ℕ} (h : ix.chain i k = none) (hle : k ≤ l) : ix.chain i l = none := by
  induction l, hle using Nat.le_induction with
  | base => exact h
  | succ l _ ih => rw [chain, ih, Option.bind_none]

theorem resolve_of_not_isAlias (h : ¬ ix.IsAlias i) : ix.resolve i = i := by
  rw [resolve, resolveFrom, aliasOf_eq_none_iff.2 h]

theorem Cycles.isAlias (h : ix.Cycles i) : ix.IsAlias i := by
  obtain ⟨a, b, x, hab, -, hb⟩ := h
  by_contra hnot
  have hnext : ix.chain i 1 = none := aliasOf_eq_none_iff.2 hnot
  rw [chain_eq_none hnext (by omega)] at hb
  cases hb

/-! ### Ways -/

/-- From `i`, behind the entities of `passed`, the chain goes on through the new entities of `rest`,
and behind the last of them there is no new one. -/
inductive Way (ix : Index) : (passed : List EntityId) → EntityId → (rest : List EntityId) → Prop
  | stop {passed : List EntityId} {i : EntityId}
      (closed : ∀ v, ix.aliasOf i = some v → v ∈ i :: passed) : Way ix passed i []
  | follow {passed rest : List EntityId} {i v : EntityId} (value : ix.aliasOf i = some v)
      (fresh : v ∉ i :: passed) (further : Way ix (i :: passed) v rest) :
      Way ix passed i (v :: rest)

/-- Each step leaves one more variable behind, and there are no more than the index holds. -/
theorem exists_way {passed : List EntityId} {i : EntityId} (hnodup : passed.Nodup)
    (hpassed : ∀ x ∈ passed, ix.IsAlias x) (hi : i ∉ passed) :
    ∃ rest, ix.Way passed i rest ∧ passed.length + rest.length ≤ ix.entities.size := by
  by_cases hstop : ∀ v, ix.aliasOf i = some v → v ∈ i :: passed
  · exact ⟨[], .stop hstop, length_le_of_isAlias hnodup hpassed⟩
  · simp only [not_forall] at hstop
    obtain ⟨v, hv, hfresh⟩ := hstop
    have hlonger : ∀ x ∈ i :: passed, ix.IsAlias x := by
      intro x hx
      rcases List.mem_cons.1 hx with rfl | hx
      · exact isAlias_of_aliasOf hv
      · exact hpassed x hx
    have hnodup' := List.nodup_cons.2 ⟨hi, hnodup⟩
    have hlt : passed.length < ix.entities.size := length_le_of_isAlias hnodup' hlonger
    obtain ⟨rest, hway, hlength⟩ := exists_way hnodup' hlonger hfresh
    rw [List.length_cons] at hlength
    exact ⟨v :: rest, .follow hv hfresh hway, by rw [List.length_cons]; omega⟩
termination_by ix.entities.size - passed.length
decreasing_by
  rw [List.length_cons]
  omega

namespace Way

/-- The bounded search reaches the end of the way. A variable that is its own value is entered once
more before the search sees that it was there. -/
theorem resolveFrom_eq (h : ix.Way passed i rest) {fuel : ℕ} (hfuel : rest.length < fuel) :
    ix.resolveFrom fuel passed i = rest.getLastD i := by
  induction h generalizing fuel with
  | @stop passed i closed =>
    obtain ⟨fuel, rfl⟩ := Nat.exists_eq_succ_of_ne_zero (Nat.ne_of_gt hfuel)
    rw [resolveFrom, List.getLastD_nil]
    cases hv : ix.aliasOf i with
    | none => rfl
    | some v =>
      dsimp only
      by_cases hseen : v ∈ passed
      · rw [if_pos hseen]
      · rw [if_neg hseen]
        obtain rfl : v = i := (List.mem_cons.1 (closed v hv)).resolve_right hseen
        cases fuel with
        | zero => rfl
        | succ fuel =>
          rw [resolveFrom, hv]
          exact if_pos List.mem_cons_self
  | @follow passed rest i v value fresh _ ih =>
    obtain ⟨fuel, rfl⟩ := Nat.exists_eq_succ_of_ne_zero (Nat.ne_of_gt (Nat.zero_lt_of_lt hfuel))
    rw [List.length_cons] at hfuel
    rw [resolveFrom, value, List.getLastD_cons]
    dsimp only
    rw [if_neg fun hseen => fresh (List.mem_cons_of_mem _ hseen)]
    exact ih (by omega)

theorem walks (h : ix.Way passed i rest) : ix.Walks passed i (rest.getLastD i) := by
  induction h with
  | @stop passed i closed =>
    rw [List.getLastD_nil]
    by_cases hself : ix.aliasOf i = some i ∧ i ∉ passed
    · refine .follow hself.1 hself.2 (.stop fun v hv => ?_)
      exact closed v hv
    · refine .stop fun v hv => ?_
      rcases List.mem_cons.1 (closed v hv) with rfl | hseen
      · exact not_not.1 fun hnot => hself ⟨hv, hnot⟩
      · exact hseen
  | follow value fresh _ ih =>
    rw [List.getLastD_cons]
    exact .follow value (fun hseen => fresh (List.mem_cons_of_mem _ hseen)) ih

/-- The way ends at a variable with a value exactly when the search for a cycle succeeds. -/
theorem cyclesFrom_eq (h : ix.Way passed i rest) (hi : i ∉ passed)
    (hpassed : ∀ x ∈ passed, ix.IsAlias x) {fuel : ℕ} (hfuel : rest.length + 1 < fuel) :
    ix.cyclesFrom fuel passed i = (ix.aliasOf (rest.getLastD i)).isSome := by
  induction h generalizing fuel with
  | @stop passed i closed =>
    rw [List.length_nil] at hfuel
    obtain ⟨fuel, rfl⟩ := Nat.exists_eq_add_of_le' hfuel
    rw [List.getLastD_nil, cyclesFrom, aliasOf]
    by_cases hk : (ix.entity i).kind = .variable
    · rw [if_pos hk, if_neg hi, if_pos hk]
      cases hv : (ix.entity i).value with
      | none => rfl
      | some v =>
        have hback := closed v (aliasOf_eq_some_iff.2 ⟨hk, hv⟩)
        have hkv : (ix.entity v).kind = .variable := by
          rcases List.mem_cons.1 hback with rfl | hback
          · exact hk
          · exact (hpassed v hback).1
        simp [cyclesFrom, hkv, hback]
    · rw [if_neg hk, if_neg hk]
      rfl
  | @follow passed rest i v value fresh _ ih =>
    obtain ⟨fuel, rfl⟩ := Nat.exists_eq_succ_of_ne_zero (Nat.ne_of_gt (Nat.zero_lt_of_lt hfuel))
    rw [List.length_cons] at hfuel
    obtain ⟨hk, hv⟩ := aliasOf_eq_some_iff.1 value
    rw [List.getLastD_cons, cyclesFrom, if_pos hk, if_neg hi, hv]
    refine ih fresh (fun x hx => ?_) (by omega)
    rcases List.mem_cons.1 hx with rfl | hx
    · exact isAlias_of_aliasOf value
    · exact hpassed x hx

theorem seeks (h : ix.Way passed i rest) (hi : i ∉ passed)
    (hpassed : ∀ x ∈ passed, ix.IsAlias x) :
    ix.Seeks passed i (ix.aliasOf (rest.getLastD i)).isSome := by
  induction h with
  | @stop passed i closed =>
    rw [List.getLastD_nil]
    by_cases hk : (ix.entity i).kind = .variable
    · cases hv : (ix.entity i).value with
      | none =>
        rw [aliasOf, if_pos hk, hv]
        exact .unknown hk hi hv
      | some v =>
        have hvalue := aliasOf_eq_some_iff.2 ⟨hk, hv⟩
        have hkv : (ix.entity v).kind = .variable := by
          rcases List.mem_cons.1 (closed v hvalue) with rfl | hback
          · exact hk
          · exact (hpassed v hback).1
        rw [hvalue]
        exact .follow hk hi hv (.back hkv (closed v hvalue))
    · rw [aliasOf, if_neg hk]
      exact .other hk
  | @follow passed rest i v value fresh _ ih =>
    obtain ⟨hk, hv⟩ := aliasOf_eq_some_iff.1 value
    rw [List.getLastD_cons]
    refine .follow hk hi hv (ih fresh fun x hx => ?_)
    rcases List.mem_cons.1 hx with rfl | hx
    · exact isAlias_of_aliasOf value
    · exact hpassed x hx

/-! ### The chain along a way -/

theorem chain_eq (h : ix.Way passed i rest) {k : ℕ} (hk : k ≤ rest.length) :
    ix.chain i k = (i :: rest)[k]? := by
  induction h generalizing k with
  | stop =>
    obtain rfl := Nat.le_zero.1 hk
    rfl
  | follow value _ _ ih =>
    cases k with
    | zero => rfl
    | succ k =>
      rw [chain_succ', value, Option.bind_some, List.getElem?_cons_succ]
      exact ih (Nat.le_of_succ_le_succ hk)

theorem chain_length (h : ix.Way passed i rest) :
    ix.chain i rest.length = some (rest.getLastD i) := by
  induction h with
  | stop => rfl
  | follow value _ _ ih =>
    rw [List.length_cons, chain_succ', value, Option.bind_some, List.getLastD_cons]
    exact ih

theorem closed (h : ix.Way passed i rest) (hv : ix.aliasOf (rest.getLastD i) = some v) :
    v ∈ passed ∨ v ∈ i :: rest := by
  induction h with
  | stop closed =>
    rcases List.mem_cons.1 (closed v hv) with rfl | hpassed
    · exact .inr List.mem_cons_self
    · exact .inl hpassed
  | follow _ _ _ ih =>
    rw [List.getLastD_cons] at hv
    rcases ih hv with hpassed | hrest
    · rcases List.mem_cons.1 hpassed with rfl | hpassed
      · exact .inr List.mem_cons_self
      · exact .inl hpassed
    · exact .inr (List.mem_cons_of_mem _ hrest)

/-- The entities of a way are new, one after the other. -/
theorem nodup (h : ix.Way passed i rest) : (i :: rest).Nodup ∧ ∀ x ∈ rest, x ∉ i :: passed := by
  induction h with
  | stop => exact ⟨List.nodup_singleton _, by simp⟩
  | @follow passed rest i v value fresh _ ih =>
    have hnew : ∀ x ∈ v :: rest, x ∉ i :: passed := by
      intro x hx
      rcases List.mem_cons.1 hx with rfl | hx
      · exact fresh
      · exact fun hmem => ih.2 x hx (List.mem_cons_of_mem _ hmem)
    exact ⟨List.nodup_cons.2 ⟨fun hi => hnew i hi List.mem_cons_self, ih.1⟩, hnew⟩

theorem chain_inj (h : ix.Way passed i rest) {a b : ℕ} (ha : a ≤ rest.length)
    (hb : b ≤ rest.length) (hab : ix.chain i a = ix.chain i b) : a = b := by
  rw [h.chain_eq ha, h.chain_eq hb] at hab
  have hlt : a < (i :: rest).length := by
    rw [List.length_cons]
    omega
  exact (List.getElem?_inj hlt h.nodup.1).1 hab

/-- Before its end a way stands at variables with values only. -/
theorem isAlias_of_lt (h : ix.Way passed i rest) {k : ℕ} (hk : k < rest.length) :
    ∃ x, ix.chain i k = some x ∧ ix.IsAlias x := by
  induction h generalizing k with
  | stop => cases hk
  | @follow passed rest i v value _ _ ih =>
    cases k with
    | zero => exact ⟨i, rfl, isAlias_of_aliasOf value⟩
    | succ k =>
      obtain ⟨x, hx, halias⟩ := ih (Nat.lt_of_succ_lt_succ hk)
      exact ⟨x, by rw [chain_succ', value, Option.bind_some, hx], halias⟩

/-- The chain does not leave its way. -/
theorem mem_of_follows (h : ix.Way [] i rest) (hs : ix.Follows i s) : s ∈ i :: rest := by
  induction hs with
  | refl => exact List.mem_cons_self
  | @tail x s _ hx ih =>
    obtain ⟨k, hk⟩ := List.mem_iff_getElem?.1 ih
    have hlt : k < (i :: rest).length := (List.getElem?_eq_some_iff.1 hk).1
    rw [List.length_cons] at hlt
    have hnext : ix.chain i (k + 1) = some s := by
      rw [chain, h.chain_eq (by omega), hk, Option.bind_some, hx]
    by_cases hlast : k = rest.length
    · rw [hlast, chain, h.chain_length, Option.bind_some] at hnext
      exact (h.closed hnext).resolve_left List.not_mem_nil
    · rw [h.chain_eq (by omega)] at hnext
      exact List.mem_iff_getElem?.2 ⟨k + 1, hnext⟩

/-- A chain that comes to an end ends where its way does. -/
theorem getLastD_eq (h : ix.Way [] i rest) (hs : ix.Follows i s) (hend : ix.aliasOf s = none) :
    rest.getLastD i = s := by
  obtain ⟨k, hk⟩ := List.mem_iff_getElem?.1 (h.mem_of_follows hs)
  have hlt : k < (i :: rest).length := (List.getElem?_eq_some_iff.1 hk).1
  rw [List.length_cons] at hlt
  rw [← h.chain_eq (by omega)] at hk
  have hlast : k = rest.length := by
    by_contra hne
    obtain ⟨x, hx, halias⟩ := h.isAlias_of_lt (by omega : k < rest.length)
    obtain rfl : x = s := Option.some.inj (hx.symm.trans hk)
    exact aliasOf_eq_none_iff.1 hend halias
  rw [hlast, h.chain_length] at hk
  exact Option.some.inj hk

/-- The next entity of a chain behind its way is the first that is not new. -/
theorem exists_repeated (h : ix.Way [] i rest) (hend : ix.IsAlias (rest.getLastD i)) :
    ∃ a x, a ≤ rest.length ∧ ix.chain i a = some x ∧ ix.chain i (rest.length + 1) = some x := by
  obtain ⟨v, hv⟩ := exists_aliasOf hend
  have hmem := (h.closed hv).resolve_left List.not_mem_nil
  obtain ⟨a, ha⟩ := List.mem_iff_getElem?.1 hmem
  have hlt : a < (i :: rest).length := (List.getElem?_eq_some_iff.1 ha).1
  rw [List.length_cons] at hlt
  have hle : a ≤ rest.length := by omega
  refine ⟨a, v, hle, by rw [h.chain_eq hle, ha], ?_⟩
  rw [chain, h.chain_length, Option.bind_some, hv]

theorem cycles_iff (h : ix.Way [] i rest) : ix.Cycles i ↔ ix.IsAlias (rest.getLastD i) := by
  constructor
  · rintro ⟨a, b, x, hab, ha, hb⟩
    by_contra hend
    have hnext : ix.chain i (rest.length + 1) = none := by
      rw [chain, h.chain_length, Option.bind_some, aliasOf_eq_none_iff.2 hend]
    have hle : b ≤ rest.length := by
      by_contra hlt
      rw [chain_eq_none hnext (by omega)] at hb
      cases hb
    have heq := h.chain_inj (by omega) hle (ha.trans hb.symm)
    omega
  · intro hend
    obtain ⟨a, x, hle, ha, hnext⟩ := h.exists_repeated hend
    exact ⟨a, rest.length + 1, x, by omega, ha, hnext⟩

end Way

/-! ### What an entity resolves to -/

theorem exists_way_resolve (ix : Index) (i : EntityId) : ∃ rest, ix.Way [] i rest ∧
    rest.length ≤ ix.entities.size ∧ ix.resolve i = rest.getLastD i := by
  have hnone : ∀ x ∈ ([] : List EntityId), ix.IsAlias x := by simp
  obtain ⟨rest, hway, hlength⟩ := exists_way List.nodup_nil hnone (List.not_mem_nil : i ∉ [])
  rw [List.length_nil, Nat.zero_add] at hlength
  exact ⟨rest, hway, hlength, hway.resolveFrom_eq (by omega)⟩

theorem follows_of_chain {k : ℕ} (h : ix.chain i k = some s) : ix.Follows i s := by
  induction k generalizing s with
  | zero =>
    cases h
    exact .refl
  | succ k ih =>
    obtain ⟨x, hx, hs⟩ := Option.bind_eq_some_iff.1 h
    exact (ih hx).tail hs

/-- What an entity resolves to is on its chain. -/
theorem follows_resolve (ix : Index) (i : EntityId) : ix.Follows i (ix.resolve i) := by
  obtain ⟨rest, hway, -, hresolve⟩ := exists_way_resolve ix i
  exact hresolve ▸ follows_of_chain hway.chain_length

/-- An entity resolves to the end of a chain exactly when its own chain leads there. -/
theorem resolve_eq_iff (hend : ix.aliasOf s = none) : ix.resolve i = s ↔ ix.Follows i s := by
  constructor
  · rintro rfl
    exact follows_resolve ix i
  · intro hs
    obtain ⟨rest, hway, -, hresolve⟩ := exists_way_resolve ix i
    exact hresolve.trans (hway.getLastD_eq hs hend)

/-- What an entity resolves to, said by its chain alone. -/
structure Canonical (ix : Index) (i : EntityId) : Prop where
  /-- Following variables without a bound comes to an end, and there is no other end. -/
  walks_iff : ∀ s, ix.Walks [] i s ↔ s = ix.resolve i
  onChain : ∃ k, ix.chain i k = some (ix.resolve i)
  resolve_of_kind : (ix.entity i).kind ≠ .variable → ix.resolve i = i
  /-- A chain that does not come back resolves to its first entity that is not a variable with a
  known value. -/
  ended : ¬ ix.Cycles i → ¬ ix.IsAlias (ix.resolve i) ∧
    ∃ k, ix.chain i k = some (ix.resolve i) ∧ ∀ a < k, ∃ x, ix.chain i a = some x ∧ ix.IsAlias x
  /-- A chain that comes back resolves to the last variable before the first repetition. -/
  cycled : ix.Cycles i → ix.IsAlias (ix.resolve i) ∧
    ∃ k, ix.chain i k = some (ix.resolve i) ∧
      (∀ a ≤ k, ∀ b ≤ k, ix.chain i a = ix.chain i b → a = b) ∧
      ∃ a x, a ≤ k ∧ ix.chain i a = some x ∧ ix.chain i (k + 1) = some x
  /-- Looking for a cycle without a bound comes to an end too. -/
  seeks_iff : ∀ b, ix.Seeks [] i b ↔ b = ix.isAliasCycle i
  isAliasCycle_iff : ix.isAliasCycle i = true ↔ ix.Cycles i

theorem canonical (ix : Index) (i : EntityId) : Canonical ix i := by
  have hnone : ∀ x ∈ ([] : List EntityId), ix.IsAlias x := by simp
  obtain ⟨rest, hway, hlength, hresolve⟩ := exists_way_resolve ix i
  have hcycle : ix.isAliasCycle i = (ix.aliasOf (rest.getLastD i)).isSome :=
    hway.cyclesFrom_eq (by simp) hnone (by omega)
  constructor
  · intro s
    constructor
    · exact fun h => (hresolve ▸ h.unique hway.walks)
    · rintro rfl
      exact hresolve ▸ hway.walks
  · exact ⟨rest.length, hresolve ▸ hway.chain_length⟩
  · intro hk
    cases hway with
    | stop => exact hresolve
    | follow value => exact absurd (isAlias_of_aliasOf value).1 hk
  · intro hc
    rw [hway.cycles_iff, ← hresolve] at hc
    exact ⟨hc, rest.length, hresolve ▸ hway.chain_length, fun a ha => hway.isAlias_of_lt ha⟩
  · intro hc
    rw [hway.cycles_iff] at hc
    refine ⟨hresolve ▸ hc, rest.length, hresolve ▸ hway.chain_length, ?_, hway.exists_repeated hc⟩
    exact fun a ha b hb => hway.chain_inj ha hb
  · intro b
    have hseeks := hway.seeks (by simp) hnone
    rw [← hcycle] at hseeks
    constructor
    · exact fun h => h.unique hseeks
    · rintro rfl
      exact hseeks
  · rw [hcycle, hway.cycles_iff, Option.isSome_iff_ne_none, ne_eq, aliasOf_eq_none_iff, not_not]

end Index
end ApiDiagrams
