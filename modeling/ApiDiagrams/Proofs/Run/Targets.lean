import ApiDiagrams.Proofs.Run.Planning

/-!
# What targets stand for

A target is the name of an entity or, when it names none, a pattern over paths. The targets of a
directive stand for the union of what they yield one by one, in the order in which it is met; a
target that is neither a name nor a pattern ends the search.

* `NamesEntity`, `Yields`, `IsStray`: what a single target says of an index, apart from the search;
* `exists_addNew`: what one more target adds to what was found;
* `Precedes`, `IsUnion`: the union of targets in order, with `IsUnion.concat` for one more target;
* `warned`, `resolveTargets_append`: the world after targets that are not stray;
* `targetsOf_covered`: targets that yield nothing new leave the result as it is.
-/

namespace ApiDiagrams
namespace Run

variable {rule : PatternRule} {ix : Index} {t : String} {i j : EntityId} {targets : List String}

/-! ### A single target -/

/-- The entity is the first listed one whose name is written so. -/
def NamesEntity (ix : Index) (t : String) (i : EntityId) : Prop :=
  ∃ before after, ix.listed = before ++ i :: after ∧ (ix.nameOf i).text = t ∧
    ∀ j ∈ before, (ix.nameOf j).text ≠ t

/-- No listed entity has this name. -/
def NamesNothing (ix : Index) (t : String) : Prop := ∀ i ∈ ix.listed, (ix.nameOf i).text ≠ t

/-- The pattern over paths that a target writes, with slashes for its dots. -/
def pattern (t : String) : String := (Name.parse t).path

/-- The target yields the entity: it is the name of the entity or, if it names nothing, a pattern
that accepts the path of the entity. -/
inductive Yields (rule : PatternRule) (ix : Index) (t : String) (i : EntityId) : Prop
  | named (names : NamesEntity ix t i)
  | matched (namesNothing : NamesNothing ix t) (valid : rule.isValid (pattern t) = true)
      (listed : i ∈ ix.listed) (accepted : rule.accepts (pattern t) (ix.nameOf i).path = true)

/-- The target is neither a name nor a pattern. -/
structure IsStray (rule : PatternRule) (ix : Index) (t : String) : Prop where
  namesNothing : NamesNothing ix t
  invalid : rule.isValid (pattern t) = false

theorem lookup_eq_some_iff_names : ix.lookup t = some i ↔ NamesEntity ix t i := by
  rw [Index.lookup, List.find?_eq_some_iff_append]
  simp [NamesEntity]
  tauto

theorem lookup_eq_none_iff_namesNothing : ix.lookup t = none ↔ NamesNothing ix t := by
  simp [Index.lookup, NamesNothing]

theorem NamesEntity.not_namesNothing (h : NamesEntity ix t i) : ¬ NamesNothing ix t := by
  obtain ⟨before, after, hl, ht, -⟩ := h
  intro hnone
  exact hnone i (by simp [hl]) ht

theorem select_eq_none_iff : ix.select rule t = none ↔ IsStray rule ix t := by
  unfold Index.select
  cases hl : ix.lookup t with
  | some a =>
    have hnames := lookup_eq_some_iff_names.1 hl
    simp only [reduceCtorEq, false_iff]
    exact fun h => hnames.not_namesNothing h.namesNothing
  | none =>
    have hnone := lookup_eq_none_iff_namesNothing.1 hl
    by_cases hv : rule.isValid (pattern t) = true
    · simp only [pattern] at hv
      simp only [hv, if_true, reduceCtorEq, false_iff]
      intro h
      have hinvalid := h.invalid
      rw [pattern, hv] at hinvalid
      cases hinvalid
    · have hinvalid : rule.isValid (pattern t) = false := by simpa using hv
      simp only [pattern] at hv
      simp only [hv, if_false, true_iff, Bool.false_eq_true]
      exact ⟨hnone, hinvalid⟩

theorem mem_select_iff {found : List EntityId} (h : ix.select rule t = some found) :
    i ∈ found ↔ Yields rule ix t i := by
  unfold Index.select at h
  cases hl : ix.lookup t with
  | some a =>
    have hnames := lookup_eq_some_iff_names.1 hl
    rw [hl] at h
    cases h
    rw [List.mem_singleton]
    constructor
    · rintro rfl
      exact .named hnames
    · rintro (hi | ⟨hnone, -, -, -⟩)
      · rw [lookup_eq_some_iff_names.2 hi] at hl
        exact Option.some.inj hl
      · exact absurd hnone hnames.not_namesNothing
  | none =>
    have hnone := lookup_eq_none_iff_namesNothing.1 hl
    rw [hl] at h
    dsimp only at h
    split_ifs at h with hv
    cases h
    rw [List.mem_filter]
    constructor
    · rintro ⟨hi, hacc⟩
      exact .matched hnone hv hi hacc
    · rintro (hi | ⟨-, -, hi, hacc⟩)
      · exact absurd hnone hi.not_namesNothing
      · exact ⟨hi, hacc⟩

/-! ### Order -/

/-- A list with some entries left out keeps the order of first occurrences. -/
theorem idxOf_lt_of_filter {p : EntityId → Bool} {l : List EntityId} (hj : p j = true)
    (h : (l.filter p).idxOf i < (l.filter p).idxOf j) : l.idxOf i < l.idxOf j := by
  induction l with
  | nil => simp at h
  | cons a l ih =>
    by_cases ha : p a = true
    · rw [List.filter_cons_of_pos ha] at h
      by_cases hia : a = i
      · subst hia
        have hja : a ≠ j := by
          rintro rfl
          exact Nat.lt_irrefl _ h
        simp [List.idxOf_cons_ne l hja]
      · by_cases hja : a = j
        · subst hja
          simp at h
        · rw [List.idxOf_cons_ne _ hia, List.idxOf_cons_ne _ hja] at h ⊢
          have := ih (by omega)
          omega
    · rw [List.filter_cons_of_neg ha] at h
      have hja : a ≠ j := by
        rintro rfl
        exact ha hj
      rw [List.idxOf_cons_ne _ hja]
      by_cases hia : a = i
      · simp [hia]
      · rw [List.idxOf_cons_ne _ hia]
        have := ih h
        omega

/-- What a target yields is met in the order of the index. -/
theorem idxOf_listed_lt_of_select {found : List EntityId} (h : ix.select rule t = some found)
    (hj : j ∈ found) (hlt : found.idxOf i < found.idxOf j) :
    ix.listed.idxOf i < ix.listed.idxOf j := by
  unfold Index.select at h
  cases hl : ix.lookup t with
  | some a =>
    rw [hl] at h
    cases h
    rw [List.mem_singleton.1 hj] at hlt
    simp at hlt
  | none =>
    rw [hl] at h
    dsimp only at h
    split_ifs at h with hv
    cases h
    exact idxOf_lt_of_filter (List.mem_filter.1 hj).2 hlt

/-- What is added to the entities found before: those that are new, in the order in which they are
first met. -/
theorem exists_addNew (done found : List EntityId) :
    ∃ more, addNew done found = done ++ more ∧ (∀ i, i ∈ more ↔ i ∈ found ∧ i ∉ done) ∧
      more.Pairwise fun i j => found.idxOf i < found.idxOf j := by
  induction found using List.reverseRecOn with
  | nil => exact ⟨[], by simp [addNew], by simp, .nil⟩
  | append_singleton found a ih =>
    obtain ⟨more, heq, hmem, hpair⟩ := ih
    have hstep : addNew done (found ++ [a]) =
        if a ∈ done ++ more then done ++ more else done ++ more ++ [a] := by
      rw [← heq]
      simp [addNew]
    -- entities met before keep their places
    have hsame : ∀ i ∈ more, (found ++ [a]).idxOf i = found.idxOf i := fun i hi =>
      List.idxOf_append_of_mem ((hmem i).1 hi).1
    have hold : more.Pairwise fun i j => (found ++ [a]).idxOf i < (found ++ [a]).idxOf j := by
      refine hpair.imp_of_mem fun {i j} hi hj hlt => ?_
      rwa [hsame i hi, hsame j hj]
    by_cases ha : a ∈ done ++ more
    · refine ⟨more, by rw [hstep, if_pos ha], fun i => ?_, hold⟩
      rw [hmem, List.mem_append, List.mem_singleton]
      constructor
      · rintro ⟨hi, hnew⟩
        exact ⟨.inl hi, hnew⟩
      · rintro ⟨hi | rfl, hnew⟩
        · exact ⟨hi, hnew⟩
        · exact (hmem i).1 ((List.mem_append.1 ha).resolve_left hnew)
    · rw [List.mem_append, not_or] at ha
      have hnew : a ∉ found := fun hf => ha.2 ((hmem a).2 ⟨hf, ha.1⟩)
      refine ⟨more ++ [a], by rw [hstep, if_neg (by simp [ha]), List.append_assoc], fun i => ?_, ?_⟩
      · rw [List.mem_append, List.mem_append, List.mem_singleton, hmem]
        constructor
        · rintro (⟨hi, hnot⟩ | rfl)
          · exact ⟨.inl hi, hnot⟩
          · exact ⟨.inr rfl, ha.1⟩
        · rintro ⟨hi | rfl, hnot⟩
          · exact .inl ⟨hi, hnot⟩
          · exact .inr rfl
      · refine List.pairwise_append.2 ⟨hold, List.pairwise_singleton _ _, fun i hi b hb => ?_⟩
        rw [List.mem_singleton.1 hb, hsame i hi, List.idxOf_append_of_notMem hnew]
        have := List.idxOf_lt_length_of_mem ((hmem i).1 hi).1
        omega

/-! ### The union -/

/-- The first target that yields `i` comes before the first one that yields `j`, or they are the
same one and `i` comes before `j` in the index. -/
def Precedes (rule : PatternRule) (ix : Index) (targets : List String) (i j : EntityId) : Prop :=
  ∃ before t after, targets = before ++ t :: after ∧ Yields rule ix t i ∧
    (∀ u ∈ before, ¬ Yields rule ix u i ∧ ¬ Yields rule ix u j) ∧
    (Yields rule ix t j → ix.listed.idxOf i < ix.listed.idxOf j)

/-- The entities are those that some target yields, each once, ordered by the first target that
yields them and within one target as in the index. -/
structure IsUnion (rule : PatternRule) (ix : Index) (targets : List String)
    (found : List EntityId) : Prop where
  nodup : found.Nodup
  mem_iff : ∀ i, i ∈ found ↔ ∃ t ∈ targets, Yields rule ix t i
  ordered : found.Pairwise (Precedes rule ix targets)

theorem exists_first {α : Type} {p : α → Prop} {l : List α} (h : ∃ x ∈ l, p x) :
    ∃ before x after, l = before ++ x :: after ∧ p x ∧ ∀ y ∈ before, ¬ p y := by
  classical
  obtain ⟨x, hx⟩ : ∃ x, l.find? (fun y => decide (p y)) = some x := by
    rw [← Option.isSome_iff_exists, List.find?_isSome]
    simpa using h
  obtain ⟨hp, before, after, hl, hbefore⟩ := List.find?_eq_some_iff_append.1 hx
  exact ⟨before, x, after, hl, by simpa using hp, by simpa using hbefore⟩

theorem isUnion_nil : IsUnion rule ix [] [] where
  nodup := List.nodup_nil
  mem_iff i := by simp
  ordered := .nil

/-- The union with one more target. What the target adds comes after all that was found. -/
theorem IsUnion.concat {done found : List EntityId} (h : IsUnion rule ix targets done)
    (hfound : ix.select rule t = some found) :
    IsUnion rule ix (targets ++ [t]) (addNew done found) := by
  obtain ⟨more, heq, hmem, hpair⟩ := exists_addNew done found
  have hnodup : more.Nodup := hpair.imp fun hlt hij => by
    rw [hij] at hlt
    exact Nat.lt_irrefl _ hlt
  have hyields : ∀ i, i ∈ more ↔ Yields rule ix t i ∧ i ∉ done := fun i => by
    rw [hmem, mem_select_iff hfound]
  have hnone : ∀ i ∈ more, ∀ u ∈ targets, ¬ Yields rule ix u i := fun i hi u hu hy =>
    ((hyields i).1 hi).2 ((h.mem_iff i).2 ⟨u, hu, hy⟩)
  rw [heq]
  refine ⟨?_, fun i => ?_, List.pairwise_append.2 ⟨?_, ?_, ?_⟩⟩
  · refine List.nodup_append.2 ⟨h.nodup, hnodup, ?_⟩
    rintro i hi j hj rfl
    exact ((hyields i).1 hj).2 hi
  · rw [List.mem_append, h.mem_iff, hyields]
    constructor
    · rintro (⟨u, hu, hy⟩ | ⟨hy, -⟩)
      · exact ⟨u, List.mem_append_left _ hu, hy⟩
      · exact ⟨t, by simp, hy⟩
    · rintro ⟨u, hu, hy⟩
      by_cases hi : i ∈ done
      · exact .inl ((h.mem_iff i).1 hi)
      · rcases List.mem_append.1 hu with hu | hu
        · exact .inl ⟨u, hu, hy⟩
        · rw [List.mem_singleton.1 hu] at hy
          exact .inr ⟨hy, hi⟩
  · refine h.ordered.imp fun {i j} hij => ?_
    obtain ⟨before, u, after, rfl, hu, hbefore, hindex⟩ := hij
    exact ⟨before, u, after ++ [t], by simp, hu, hbefore, hindex⟩
  · refine hpair.imp_of_mem fun {i j} hi hj hlt => ?_
    refine ⟨targets, t, [], rfl, ((hyields i).1 hi).1, fun u hu => ?_, fun _ => ?_⟩
    · exact ⟨hnone i hi u hu, hnone j hj u hu⟩
    · exact idxOf_listed_lt_of_select hfound ((hmem j).1 hj).1 hlt
  · intro i hi j hj
    obtain ⟨before, u, after, rfl, hu, hbefore⟩ := exists_first ((h.mem_iff i).1 hi)
    refine ⟨before, u, after ++ [t], by simp, hu, fun v hv => ?_, fun hy => ?_⟩
    · exact ⟨hbefore v hv, hnone j hj v (by simp [hv])⟩
    · exact absurd hy (hnone j hj u (by simp))

/-! ### The search -/

/-- The fault of a target that is neither a name nor a pattern. -/
def patternFault (t : String) : Fault :=
  .wrapped .invalidInput ("target " ++ Text.quote t) (.plain "syntax error in pattern")

theorem resolveTarget_eq_error_iff {f : Fault} :
    resolveTarget rule ix t = .error f ↔ IsStray rule ix t ∧ f = patternFault t := by
  rw [← select_eq_none_iff]
  unfold resolveTarget
  cases hl : ix.lookup t with
  | some a => simp [Index.select, hl]
  | none =>
    cases hs : ix.select rule t with
    | some found => simp
    | none => simp [patternFault, eq_comm]

/-- The target is not stray, but yields nothing. -/
def IsIdle (rule : PatternRule) (ix : Index) (t : String) : Prop :=
  ¬ IsStray rule ix t ∧ ∀ i, ¬ Yields rule ix t i

theorem isIdle_iff : IsIdle rule ix t ↔ ix.select rule t = some [] := by
  unfold IsIdle
  rw [← select_eq_none_iff]
  cases hs : ix.select rule t with
  | none => simp
  | some found =>
    simp only [← mem_select_iff hs, reduceCtorEq, not_false_eq_true, true_and, Option.some.injEq]
    exact List.eq_nil_iff_forall_not_mem.symm

instance (rule : PatternRule) (ix : Index) : DecidablePred (IsIdle rule ix) := fun _ =>
  decidable_of_iff _ isIdle_iff.symm

/-- The world after one warning for each target that yields nothing, as far as the log shows
warnings. -/
def warned (rule : PatternRule) (ix : Index) (targets : List String) (w : World) : World :=
  { w with log := w.log ++
      ((targets.filter (IsIdle rule ix)).map unmatched).filter (·.isShown w.level) }

theorem warned_cons (rule : PatternRule) (ix : Index) (t : String) (targets : List String)
    (w : World) : warned rule ix (t :: targets) w =
      warned rule ix targets
        (if IsIdle rule ix t then ((Effect.log (unmatched t)).run w).2 else w) := by
  by_cases ht : IsIdle rule ix t
  · rw [if_pos ht]
    change _ = warned rule ix targets
      (if (unmatched t).isShown w.level then { w with log := w.log ++ [unmatched t] } else w)
    by_cases hs : (unmatched t).isShown w.level = true
    · simp [warned, ht, hs]
    · simp [warned, ht, hs]
  · simp [warned, ht]

/-- Targets that are resolved leave what they stand for, and their warnings, to the others. -/
theorem resolveTargets_append {before : List String} {done found : List EntityId}
    (h : targetsOf rule ix done before = .ok found) (rest : List String) (w : World) :
    (resolveTargets rule ix done (before ++ rest)).run w =
      (resolveTargets rule ix found rest).run (warned rule ix before w) := by
  induction before generalizing done w with
  | nil =>
    cases h
    simp [warned]
  | cons t before ih =>
    rw [targetsOf_cons, bind_eq_ok_iff] at h
    obtain ⟨new, ht, h⟩ := h
    have hidle : IsIdle rule ix t ↔ new.isEmpty = true := by
      rw [isIdle_iff, resolveTarget_eq_ok_iff.1 ht]
      simp
    rw [List.cons_append, resolveTargets, ht, warned_cons, ← ih h]
    by_cases hn : new.isEmpty = true
    · simp only [hn, if_true, if_pos (hidle.2 hn), Effect.run_bind]
    · simp only [hn, if_neg (mt hidle.1 hn)]
      rfl

/-- Targets none of which is stray stand for something. -/
theorem exists_targetsOf {done : List EntityId} (h : ∀ t ∈ targets, ¬ IsStray rule ix t) :
    ∃ found, targetsOf rule ix done targets = .ok found := by
  cases hf : targetsOf rule ix done targets with
  | ok found => exact ⟨found, rfl⟩
  | error f =>
    obtain ⟨t, ht, hstray⟩ := exists_of_targetsOf_eq_error hf
    exact absurd (resolveTarget_eq_error_iff.1 hstray).1 (h t ht)

theorem targetsOf_append (done : List EntityId) (before after : List String) :
    targetsOf rule ix done (before ++ after) =
      targetsOf rule ix done before >>= fun found => targetsOf rule ix found after := by
  simp [targetsOf, List.foldlM_append]

theorem targetsOf_singleton (done : List EntityId) (t : String) :
    targetsOf rule ix done [t] = (resolveTarget rule ix t).map (addNew done) := by
  simp [targetsOf]

/-- By induction on the targets, the last one apart. -/
theorem isUnion_of_targetsOf {found : List EntityId}
    (h : targetsOf rule ix [] targets = .ok found) :
    (∀ t ∈ targets, ¬ IsStray rule ix t) ∧ IsUnion rule ix targets found := by
  induction targets using List.reverseRecOn generalizing found with
  | nil =>
    cases h
    exact ⟨by simp, isUnion_nil⟩
  | append_singleton targets t ih =>
    rw [targetsOf_append, bind_eq_ok_iff] at h
    obtain ⟨done, hdone, h⟩ := h
    obtain ⟨hsound, hunion⟩ := ih hdone
    rw [targetsOf_singleton] at h
    cases ht : resolveTarget rule ix t with
    | error f =>
      rw [ht] at h
      cases h
    | ok new =>
      rw [ht] at h
      cases h
      have hnew := resolveTarget_eq_ok_iff.1 ht
      refine ⟨fun u hu => ?_, hunion.concat hnew⟩
      rcases List.mem_append.1 hu with hu | hu
      · exact hsound u hu
      · rw [List.mem_singleton.1 hu, ← select_eq_none_iff, hnew]
        exact Option.some_ne_none _

/-- Entities that were all found before are not added again. -/
theorem addNew_of_subset {done found : List EntityId} (h : ∀ i ∈ found, i ∈ done) :
    addNew done found = done := by
  obtain ⟨more, heq, hmem, -⟩ := exists_addNew done found
  have hnil : more = [] := by
    apply List.eq_nil_iff_forall_not_mem.2
    intro i hi
    obtain ⟨hf, hnot⟩ := (hmem i).1 hi
    exact hnot (h i hf)
  rw [heq, hnil, List.append_nil]

/-- The target is one of the others, or all that it yields is yielded by them. -/
def IsCovered (rule : PatternRule) (ix : Index) (others : List String) (t : String) : Prop :=
  t ∈ others ∨ ¬ IsStray rule ix t ∧ ∀ i, Yields rule ix t i → ∃ u ∈ others, Yields rule ix u i

/-- Targets that are covered by those before them do not change what is found. -/
theorem targetsOf_covered {before more : List String} (h : ∀ t ∈ more, IsCovered rule ix before t)
    (after : List String) :
    targetsOf rule ix [] (before ++ (more ++ after)) = targetsOf rule ix [] (before ++ after) := by
  rw [targetsOf_append, targetsOf_append]
  cases hb : targetsOf rule ix [] before with
  | error f => rfl
  | ok found =>
    obtain ⟨hsound, hunion⟩ := isUnion_of_targetsOf hb
    change targetsOf rule ix found (more ++ after) = targetsOf rule ix found after
    suffices hmore : targetsOf rule ix found more = .ok found by
      rw [targetsOf_append, hmore]
      rfl
    clear hb
    induction more with
    | nil => rfl
    | cons t more ih =>
      have hfew : ¬ IsStray rule ix t ∧ ∀ i, Yields rule ix t i → i ∈ found := by
        rcases h t List.mem_cons_self with ht | ⟨ht, hall⟩
        · exact ⟨hsound t ht, fun i hi => (hunion.mem_iff i).2 ⟨t, ht, hi⟩⟩
        · exact ⟨ht, fun i hi => (hunion.mem_iff i).2 (hall i hi)⟩
      cases hs : ix.select rule t with
      | none => exact absurd (select_eq_none_iff.1 hs) hfew.1
      | some new =>
        have hadd := addNew_of_subset fun i hi => hfew.2 i ((mem_select_iff hs).1 hi)
        rw [targetsOf_cons, resolveTarget_eq_ok_iff.2 hs]
        change targetsOf rule ix (addNew found new) more = .ok found
        rw [hadd]
        exact ih fun u hu => h u (List.mem_cons_of_mem _ hu)

/-! ### The result -/

/-- How the search for targets ends: with their union and a warning for each target that yields
nothing, or at the first stray target. -/
inductive Resolved (rule : PatternRule) (ix : Index) (targets : List String) (w : World) :
    Except Fault (List EntityId) × World → Prop
  | found {found : List EntityId} (sound : ∀ t ∈ targets, ¬ IsStray rule ix t)
      (union : IsUnion rule ix targets found) :
      Resolved rule ix targets w (.ok found, warned rule ix targets w)
  | refused {before after : List String} {t : String} (split : targets = before ++ t :: after)
      (sound : ∀ u ∈ before, ¬ IsStray rule ix u) (stray : IsStray rule ix t) :
      Resolved rule ix targets w (.error (patternFault t), warned rule ix before w)

theorem resolved_of_run (rule : PatternRule) (ix : Index) (targets : List String) (w : World) :
    Resolved rule ix targets w ((resolveTargets rule ix [] targets).run w) := by
  by_cases h : ∃ t ∈ targets, IsStray rule ix t
  · obtain ⟨before, t, after, rfl, hstray, hsound⟩ := exists_first h
    obtain ⟨found, hfound⟩ := exists_targetsOf hsound
    rw [resolveTargets_append hfound, resolveTargets,
      resolveTarget_eq_error_iff.2 ⟨hstray, rfl⟩]
    exact .refused rfl hsound hstray
  · have hsound : ∀ t ∈ targets, ¬ IsStray rule ix t := fun t ht hstray => h ⟨t, ht, hstray⟩
    obtain ⟨found, hfound⟩ := exists_targetsOf hsound
    have hrun := resolveTargets_append hfound [] w
    rw [List.append_nil] at hrun
    rw [hrun]
    exact .found hsound (isUnion_of_targetsOf hfound).2

/-- The search for targets fails exactly when one of them is stray, and otherwise finds their
union; targets that are repeated, or that yield nothing new, do not change what it finds. -/
theorem resolveTargets_finds_union (rule : PatternRule) (ix : Index) (targets : List String)
    (w : World) :
    Resolved rule ix targets w ((resolveTargets rule ix [] targets).run w) ∧
      ((∃ f, ((resolveTargets rule ix [] targets).run w).1 = .error f) ↔
        ∃ t ∈ targets, IsStray rule ix t) ∧
      (∀ f, ((resolveTargets rule ix [] targets).run w).1 = .error f →
        f.code? = some .invalidInput) ∧
      ∀ before more after w', targets = before ++ after →
        (∀ t ∈ more, IsCovered rule ix before t) →
        ((resolveTargets rule ix [] (before ++ (more ++ after))).run w').1 =
          ((resolveTargets rule ix [] targets).run w).1 := by
  have hrun := resolved_of_run rule ix targets w
  refine ⟨hrun, ?_, fun f hf => ?_, ?_⟩
  · generalize (resolveTargets rule ix [] targets).run w = out at hrun
    cases hrun with
    | found sound _ =>
      constructor
      · rintro ⟨f, ⟨⟩⟩
      · rintro ⟨t, ht, hstray⟩
        exact absurd hstray (sound t ht)
    | @refused before after t split _ stray =>
      constructor
      · intro _
        exact ⟨t, by simp [split], stray⟩
      · intro _
        exact ⟨patternFault t, rfl⟩
  · generalize (resolveTargets rule ix [] targets).run w = out at hrun hf
    cases hrun with
    | found _ _ => cases hf
    | refused _ _ _ =>
      cases hf
      rfl
  · rintro before more after w' rfl hmore
    rw [(resolveTargets_run rule ix [] _ w').1, (resolveTargets_run rule ix [] _ w).1,
      targetsOf_covered hmore]

/-- A module and its two functions. -/
def moduleAndFunctions : Index :=
  ((Index.empty.add { name := ⟨["m"]⟩, kind := .module }).add
    { name := ⟨["m", "f"]⟩, kind := .routine }).add { name := ⟨["m", "g"]⟩, kind := .routine }

theorem pattern_covers_its_matches :
    (∀ t ∈ ["m.f", "m.*"], IsCovered Glob.rule moduleAndFunctions ["m.*"] t) ∧
      ((resolveTargets Glob.rule moduleAndFunctions [] ["m.*", "m.f", "m.*", "m"]).run {}).1 =
        .ok [1, 2, 0] := by
  have hall : moduleAndFunctions.select Glob.rule "m.*" = some [1, 2] := by decide +kernel
  have hone : moduleAndFunctions.select Glob.rule "m.f" = some [1] := by decide +kernel
  have hcovered : ∀ t ∈ ["m.f", "m.*"], IsCovered Glob.rule moduleAndFunctions ["m.*"] t := by
    intro t ht
    rcases List.mem_pair.1 ht with rfl | rfl
    · refine .inr ⟨?_, fun i hi => ⟨"m.*", by simp, ?_⟩⟩
      · rw [← select_eq_none_iff, hone]
        exact Option.some_ne_none _
      · rw [← mem_select_iff hone, List.mem_singleton] at hi
        rw [← mem_select_iff hall, hi]
        simp
    · exact .inl (by simp)
  have hsame := (resolveTargets_finds_union Glob.rule moduleAndFunctions ["m.*", "m"] {}).2.2.2
    ["m.*"] ["m.f", "m.*"] ["m"] {} rfl hcovered
  exact ⟨hcovered, hsame.trans (by decide +kernel)⟩

end Run
end ApiDiagrams
