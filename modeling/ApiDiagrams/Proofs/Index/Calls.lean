import ApiDiagrams.Index
import Mathlib.Data.List.Nodup
import Mathlib.Tactic

/-!
# Tables of recorded calls

A table of calls keeps the partners of each entity once, in the order of the first calls, and it has
an entry for each entity that has a partner.

* `addOnce`, `eraseDups_concat`: the first occurrences of a list that grows at its end;
* `CallTable.find_record`, `CallTable.has_record`: a table after one more call;
* `CallTable.find_foldl_record`: the partners of an entity after many calls, in order;
* `CallTable.mem_find_foldl_record`, `CallTable.has_foldl_record`: partners and entries after many
  calls;
* `Profile.foldl_addCall`: both tables of a profile at once.
-/

namespace ApiDiagrams

/-! ### First occurrences -/

/-- Puts an element at the end, once. -/
def addOnce {α : Type} [DecidableEq α] (l : List α) (x : α) : List α :=
  if x ∈ l then l else l ++ [x]

theorem mem_addOnce {α : Type} [DecidableEq α] {l : List α} {x y : α} :
    y ∈ addOnce l x ↔ y ∈ l ∨ y = x := by
  unfold addOnce
  split_ifs with h
  · constructor
    · exact Or.inl
    · rintro (hy | rfl)
      · exact hy
      · exact h
  · simp

/-- Renaming that tells the elements apart keeps what is added once. -/
theorem map_addOnce {α β : Type} [DecidableEq α] [DecidableEq β] {f : α → β} {l : List α} {x : α}
    (h : ∀ y ∈ l, f y = f x → y = x) : (addOnce l x).map f = addOnce (l.map f) (f x) := by
  have hmem : f x ∈ l.map f ↔ x ∈ l := by
    constructor
    · intro hx
      obtain ⟨y, hy, hyx⟩ := List.mem_map.1 hx
      exact h y hy hyx ▸ hy
    · exact List.mem_map_of_mem
  unfold addOnce
  by_cases hx : x ∈ l
  · rw [if_pos hx, if_pos (hmem.2 hx)]
  · rw [if_neg hx, if_neg (mt hmem.1 hx), List.map_append]
    rfl

theorem addOnce_append {α : Type} [DecidableEq α] {l l' : List α} {x : α} (h : x ∉ l) :
    addOnce (l ++ l') x = l ++ addOnce l' x := by
  unfold addOnce
  by_cases hx : x ∈ l'
  · rw [if_pos hx, if_pos (List.mem_append_right _ hx)]
  · rw [if_neg hx, if_neg (by simp [h, hx]), List.append_assoc]

theorem eraseDups_concat {α : Type} [DecidableEq α] (l : List α) (x : α) :
    (l ++ [x]).eraseDups = addOnce l.eraseDups x := by
  rw [List.eraseDups_append, addOnce]
  by_cases hx : x ∈ l
  · rw [if_pos (List.mem_eraseDups.2 hx)]
    simp [List.removeAll, hx]
  · rw [if_neg (mt List.mem_eraseDups.1 hx)]
    simp [List.removeAll, hx, List.eraseDups_cons]

theorem nodup_eraseDups {α : Type} [BEq α] [LawfulBEq α] (l : List α) : l.eraseDups.Nodup := by
  induction l using List.reverseRecOn with
  | nil => simp
  | append_singleton l x ih =>
    rw [List.eraseDups_append]
    by_cases hx : x ∈ l
    · simpa [List.removeAll, hx] using ih
    · have hnew : x ∉ l.eraseDups := by rwa [List.mem_eraseDups]
      simpa [List.removeAll, hx, List.eraseDups_cons] using ih.concat hnew

/-! ### Tables -/

namespace CallTable

theorem find_cons (k : EntityId) (partners : List EntityId) (t : CallTable) (e : EntityId) :
    find ((k, partners) :: t) e = if e = k then partners else find t e := by
  unfold find
  rw [List.lookup_cons]
  by_cases h : e = k
  · simp [h]
  · rw [if_neg h, beq_eq_false_iff_ne.2 h]

theorem find_record (t : CallTable) (key partner e : EntityId) :
    (t.record key partner).find e =
      if e = key then addOnce (t.find e) partner else t.find e := by
  induction t with
  | nil =>
    rw [record, find_cons]
    rfl
  | cons x t ih =>
    obtain ⟨k, partners⟩ := x
    by_cases hk : k = key
    · subst hk
      rw [record, if_pos rfl, find_cons, find_cons]
      by_cases he : e = k
      · rw [if_pos he, if_pos he, if_pos he, addOnce]
      · rw [if_neg he, if_neg he, if_neg he]
    · rw [record, if_neg hk, find_cons, find_cons, ih]
      by_cases he : e = k
      · have hne : e ≠ key := he ▸ hk
        rw [if_pos he, if_pos he, if_neg hne]
      · rw [if_neg he, if_neg he]

theorem has_cons (k : EntityId) (partners : List EntityId) (t : CallTable) (e : EntityId) :
    has ((k, partners) :: t) e = true ↔ e = k ∨ t.has e = true := by
  unfold has
  rw [List.lookup_cons]
  by_cases h : e = k
  · simp [h]
  · rw [beq_eq_false_iff_ne.2 h]
    simp [h]

theorem has_record (t : CallTable) (key partner e : EntityId) :
    (t.record key partner).has e = true ↔ e = key ∨ t.has e = true := by
  induction t with
  | nil => rw [record, has_cons]
  | cons x t ih =>
    obtain ⟨k, partners⟩ := x
    by_cases hk : k = key
    · rw [record, if_pos hk, has_cons, has_cons, hk, ← or_assoc, or_self]
    · rw [record, if_neg hk, has_cons, has_cons, ih, or_left_comm]

/-! ### Tables of many calls -/

variable {γ : Type} {key partner : γ → EntityId} {calls : List γ} {t : CallTable}

/-- The partners of an entity are those of its calls. -/
theorem mem_find_foldl_record {e x : EntityId} :
    x ∈ CallTable.find (calls.foldl (fun t c => t.record (key c) (partner c)) t) e ↔
      x ∈ t.find e ∨ ∃ c ∈ calls, key c = e ∧ partner c = x := by
  induction calls generalizing t with
  | nil => simp
  | cons c calls ih =>
    have hfirst : x ∈ (t.record (key c) (partner c)).find e ↔
        x ∈ t.find e ∨ key c = e ∧ partner c = x := by
      rw [find_record]
      by_cases he : e = key c
      · rw [if_pos he, mem_addOnce, and_iff_right he.symm, eq_comm]
      · rw [if_neg he, or_iff_left fun hc => he hc.1.symm]
    rw [List.foldl_cons, ih, hfirst, or_assoc]
    simp

/-- The entities of a table are those of its calls. -/
theorem has_foldl_record {e : EntityId} :
    CallTable.has (calls.foldl (fun t c => t.record (key c) (partner c)) t) e = true ↔
      t.has e = true ∨ ∃ c ∈ calls, key c = e := by
  induction calls generalizing t with
  | nil => simp
  | cons c calls ih =>
    rw [List.foldl_cons, ih, has_record, or_comm (a := e = key c), or_assoc, eq_comm (a := e)]
    simp

/-- The partners of an entity stand in the order of its first calls to them. -/
theorem find_foldl_record (e : EntityId) :
    CallTable.find (calls.foldl (fun t c => t.record (key c) (partner c)) []) e =
      ((calls.filter fun c => key c = e).map partner).eraseDups := by
  induction calls using List.reverseRecOn with
  | nil => rfl
  | append_singleton calls c ih =>
    rw [List.foldl_append, List.foldl_cons, List.foldl_nil, find_record, ih, List.filter_append,
      List.map_append]
    by_cases hc : key c = e
    · rw [if_pos hc.symm, ← eraseDups_concat]
      simp [hc]
    · rw [if_neg (Ne.symm hc)]
      simp [hc]

end CallTable

/-- Recording calls in a profile is recording them in both of its tables. -/
theorem Profile.foldl_addCall {γ : Type} (caller callee : γ → EntityId) (calls : List γ)
    (p : Profile) : calls.foldl (fun p c => p.addCall (caller c) (callee c)) p =
      ⟨calls.foldl (fun t c => t.record (callee c) (caller c)) p.callers,
        calls.foldl (fun t c => t.record (caller c) (callee c)) p.callees⟩ := by
  induction calls generalizing p with
  | nil => rfl
  | cons c calls ih => rw [List.foldl_cons, ih]; rfl

end ApiDiagrams
