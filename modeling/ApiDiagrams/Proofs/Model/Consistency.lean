import ApiDiagrams.Proofs.Model.Calls

/-!
# Built indexes are closed and consistent

What the passes of `Model.build` leave behind: every entity has a name of its own under which it is
found, everything that an entity refers to is an entity of the index, bases and subclasses are
inverse to each other, and containment is what the names say, without a cycle.

* `outsiders`: the names of bases that are not described, in order of first mention;
* `Contains`: one entity lists another as a submodule or a member;
* `Consistent`: all that holds of a built index;
* `consistent_of_build`: every built index is consistent.
-/

namespace ApiDiagrams
namespace Model

variable {m : Model}

/-! ### Names -/

/-- The names of bases that are not described, once each, in order of first mention. -/
def outsiders (m : Model) : List String :=
  ((m.entities.flatMap fun s => s.bases.map Text.Raw.lossy).filter
    (· ∉ declared m.entities)).eraseDups

/-- The base of a mention. -/
def Mention.base? : Mention → Option String
  | .base _ b => some b
  | _ => none

/-- What is known is what was known before, then the new bases in order of first mention. -/
theorem known_eq_append (names : List String) (es : List Mention) :
    known names es = names ++ ((es.filterMap Mention.base?).filter (· ∉ names)).eraseDups := by
  induction es using List.reverseRecOn with
  | nil => simp [known]
  | append_singleton es e ih =>
    rw [known_concat, List.filterMap_append, List.filter_append]
    cases e with
    | base o b =>
      have hlearn : learn (known names es) (.base o b) = addOnce (known names es) b := rfl
      rw [hlearn, ih]
      by_cases hb : b ∈ names
      · rw [addOnce, if_pos (List.mem_append_left _ hb)]
        simp [Mention.base?, hb]
      · rw [addOnce_append hb, ← eraseDups_concat]
        simp [Mention.base?, hb]
    | imported o i =>
      change known names es = names ++ (_ ++ []).eraseDups
      rw [List.append_nil]
      exact ih
    | value o t =>
      change known names es = names ++ (_ ++ []).eraseDups
      rw [List.append_nil]
      exact ih

theorem filterMap_base?_mentions (s : EntitySpec) :
    s.mentions.filterMap Mention.base? = s.bases.map Text.Raw.lossy := by
  have hbases : (s.bases.map fun b => Mention.base s.title b.lossy).filterMap Mention.base? =
      s.bases.map Text.Raw.lossy := by
    simp [List.filterMap_map, Function.comp_def, Mention.base?]
  have himports : (s.imports.map fun i => Mention.imported s.title i.lossy).filterMap
      Mention.base? = [] := by
    simp [List.filterMap_map, Function.comp_def, Mention.base?]
  unfold EntitySpec.mentions
  rw [List.filterMap_append, List.filterMap_append, hbases, himports]
  split_ifs <;> simp [Mention.base?]

theorem names_eq (m : Model) : m.names = declared m.entities ++ m.outsiders := by
  rw [names, known_eq_append, outsiders, allMentions, List.filterMap_flatMap]
  simp only [filterMap_base?_mentions]

theorem base_mem_mentions_iff {s : EntitySpec} {o b : String} :
    .base o b ∈ s.mentions ↔ s.title = o ∧ ∃ r ∈ s.bases, r.lossy = b := by
  unfold EntitySpec.mentions
  constructor
  · intro h
    have h : ∃ r ∈ s.bases, s.title = o ∧ r.lossy = b := by
      split_ifs at h <;> simpa using h
    obtain ⟨r, hr, ho, hb⟩ := h
    exact ⟨ho, r, hr, hb⟩
  · rintro ⟨rfl, r, hr, rfl⟩
    exact List.mem_append_left _ (List.mem_append_left _ (List.mem_map.2 ⟨r, hr, rfl⟩))

theorem base_mem_allMentions_iff {o b : String} : .base o b ∈ m.allMentions ↔
    ∃ s ∈ m.entities, s.title = o ∧ ∃ r ∈ s.bases, r.lossy = b := by
  simp only [allMentions, List.mem_flatMap, base_mem_mentions_iff]

/-- Every name of a built index passes the check of names. -/
theorem isDotted_of_mem_names (h : m.Valid) {n : String} (hn : n ∈ m.names) :
    Validation.IsDotted n := by
  rcases mem_known_iff.1 hn with hn | ⟨o, hn⟩
  · obtain ⟨s, hs, rfl⟩ := List.mem_map.1 hn
    exact Validation.isDotted_lossy (h.declarable.names s hs)
  · obtain ⟨s, hs, -, b, hb, rfl⟩ := base_mem_allMentions_iff.1 hn
    exact Validation.isDotted_lossy ((h.linkable s hs).bases b hb)

/-! ### Entities by name -/

theorem getElem?_place (h : m.Valid) {n : String} (hn : n ∈ m.names) :
    m.names[m.place n]? = some n := (m.places h.declarable.nodup).getElem? hn

theorem entity_place (h : m.Valid) {n : String} (hn : n ∈ m.names) :
    m.index.entity (m.place n) = m.entity n :=
  (tabulates_index h).entity_eq (getElem?_place h hn)

theorem nameOf_place (h : m.Valid) {n : String} (hn : n ∈ m.names) :
    m.index.nameOf (m.place n) = Name.parse n :=
  (tabulates_index h).nameOf_eq (getElem?_place h hn)

theorem lookup_eq_some_iff_place (h : m.Valid) {n : String} {i : EntityId} :
    m.index.lookup n = some i ↔ n ∈ m.names ∧ m.place n = i := by
  rw [(tabulates_index h).lookup_eq_some_iff]
  constructor
  · exact fun hi => ⟨List.mem_of_getElem? hi, m.places h.declarable.nodup i n hi⟩
  · rintro ⟨hn, rfl⟩
    exact getElem?_place h hn

theorem mem_listed_iff_place (h : m.Valid) {i : EntityId} :
    i ∈ m.index.listed ↔ ∃ n ∈ m.names, m.place n = i := by
  rw [(tabulates_index h).mem_listed_iff]
  constructor
  · rintro ⟨n, hn⟩
    exact ⟨n, List.mem_of_getElem? hn, m.places h.declarable.nodup i n hn⟩
  · rintro ⟨n, hn, rfl⟩
    exact ⟨n, getElem?_place h hn⟩

/-- Numbers of names occur as often as the names do. -/
theorem count_map_place {l : List String} (hl : ∀ x ∈ l, x ∈ m.names) (n : String) :
    (l.map m.place).count (m.place n) = l.count n := by
  rw [List.count, List.countP_map, List.count]
  refine List.countP_congr fun x hx => ?_
  simp only [Function.comp_apply, beq_iff_eq]
  exact ⟨fun he => place_inj (hl x hx) he, fun he => by rw [he]⟩

theorem mem_names_of_mem_bases {n b : String}
    (h : b ∈ m.allMentions.filterMap (Mention.baseOf? n)) : b ∈ m.names := by
  obtain ⟨e, he, hb⟩ := List.mem_filterMap.1 h
  cases e with
  | base o b' =>
    simp only [Mention.baseOf?, Option.ite_none_right_eq_some, Option.some.injEq] at hb
    obtain ⟨-, rfl⟩ := hb
    exact mem_known_iff.2 (Or.inr ⟨o, he⟩)
  | imported o i => cases hb
  | value o t => cases hb

theorem owner_mem_names {e : Mention} (h : e ∈ m.allMentions) : e.owner ∈ m.names := by
  obtain ⟨s, hs, he⟩ := List.mem_flatMap.1 h
  rw [s.owner_of_mem_mentions he]
  exact mem_known_iff.2 (Or.inl (List.mem_map_of_mem hs))

theorem mem_names_of_mem_subclasses {n o : String}
    (h : o ∈ m.allMentions.filterMap (Mention.subclassOf? n)) : o ∈ m.names := by
  obtain ⟨e, he, ho⟩ := List.mem_filterMap.1 h
  cases e with
  | base o' b =>
    simp only [Mention.subclassOf?, Option.ite_none_right_eq_some, Option.some.injEq] at ho
    obtain ⟨-, rfl⟩ := ho
    exact owner_mem_names he
  | imported o i => cases ho
  | value o t => cases ho

theorem mem_known_of_valueAfter {names : List String} {n t : String} {es : List Mention}
    {v : Option String} (hv : ∀ x, v = some x → x ∈ names)
    (h : valueAfter names n es v = some t) : t ∈ known names es := by
  induction es generalizing names v with
  | nil => exact hv t h
  | cons e es ih =>
    refine ih (fun x hx => ?_) h
    have hsub : ∀ y, y ∈ names → y ∈ learn names e := fun y hy => mem_learn_iff.2 (Or.inl hy)
    cases e with
    | value o t' =>
      simp only [revalue] at hx
      split_ifs at hx with ho ht
      · exact Option.some.inj hx ▸ hsub t' ht
      · exact hsub x (hv x hx)
    | base o b => exact hsub x (hv x hx)
    | imported o i => exact hsub x (hv x hx)

/-! ### The listed entities -/

theorem map_nameOf_listed (h : m.Valid) :
    m.index.listed.map m.index.nameOf = m.names.map Name.parse := by
  refine List.ext_getElem? fun k => ?_
  rw [List.getElem?_map, List.getElem?_map, (tabulates_index h).listed]
  cases hk : m.names[k]? with
  | none =>
    have hle : m.names.length ≤ k := List.getElem?_eq_none_iff.1 hk
    rw [List.getElem?_eq_none (by simpa using hle)]
    rfl
  | some n =>
    have hlt : k < m.names.length := (List.getElem?_eq_some_iff.1 hk).1
    rw [List.getElem?_range hlt, Option.map_some, Option.map_some,
      (tabulates_index h).nameOf_eq hk]

/-- The described entities come first, in order. -/
theorem listed_described (h : m.Valid) {k : ℕ} {s : EntitySpec} (hs : m.entities[k]? = some s) :
    m.index.listed[k]? = some k ∧ m.index.nameOf k = Name.parse s.title ∧
      EntityKind.parse? s.kind.lossy = some (m.index.entity k).kind := by
  have hmem : s ∈ m.entities := List.mem_of_getElem? hs
  have hk : m.names[k]? = some s.title := by
    have hlt : k < (declared m.entities).length := by
      simpa [declared] using (List.getElem?_eq_some_iff.1 hs).1
    rw [names_eq, List.getElem?_append_left hlt, declared, List.getElem?_map, hs]
    rfl
  have ht := tabulates_index h
  obtain ⟨kind, hkind⟩ := Option.isSome_iff_exists.1 (h.declarable.kinds s hmem)
  have hentity : (m.index.entity k).kind = s.stub.kind := by
    rw [ht.entity_eq hk, ← stub_of_mem h.declarable.nodup hmem]
    rfl
  refine ⟨?_, ht.nameOf_eq hk, ?_⟩
  · rw [ht.listed, List.getElem?_range (List.getElem?_eq_some_iff.1 hk).1]
  · rw [hentity, EntitySpec.stub, hkind]
    rfl

/-- All other entities are classes from outside. -/
theorem kind_of_mem_drop (h : m.Valid) {i : EntityId}
    (hi : i ∈ m.index.listed.drop m.entities.length) :
    (m.index.entity i).kind = .classType := by
  have ht := tabulates_index h
  obtain ⟨k, hk⟩ := List.mem_iff_getElem?.1 hi
  rw [List.getElem?_drop, ht.listed] at hk
  obtain ⟨hlt, rfl⟩ := List.getElem?_eq_some_iff.1 hk
  rw [List.length_range] at hlt
  have hn := List.getElem?_eq_getElem hlt
  rw [List.getElem_range, ht.entity_eq hn]
  -- a described entity would have its place among the first
  have hnot : m.names[m.entities.length + k] ∉ declared m.entities := by
    intro hd
    obtain ⟨j, hj⟩ := List.mem_iff_getElem?.1 hd
    have hjlt := (List.getElem?_eq_some_iff.1 hj).1
    have hj' : m.names[j]? = some m.names[m.entities.length + k] := by
      rw [← hj, names_eq, List.getElem?_append_left hjlt]
    have heq : (j : ℕ) = m.entities.length + k := ht.place_unique hj' hn
    rw [declared, List.length_map] at hjlt
    omega
  change (stub m.entities _).kind = _
  rw [stub_of_not_mem hnot]
  rfl

/-! ### References -/

/-- Everything that an entity refers to. -/
def references (ix : Index) (i : EntityId) : List EntityId :=
  (ix.entity i).bases ++ (ix.entity i).subclasses ++ (ix.entity i).submodules ++
    (ix.entity i).members ++ (ix.entity i).value.toList ++ ix.callers i ++ ix.callees i

/-- Every reference is to the entity of a name. -/
theorem exists_of_mem_references (h : m.Valid) {n : String} (hn : n ∈ m.names) {j : EntityId}
    (hj : j ∈ references m.index (m.place n)) : ∃ x ∈ m.names, m.place x = j := by
  have hmap : ∀ l : List String, (∀ x ∈ l, x ∈ m.names) → j ∈ l.map m.place →
      ∃ x ∈ m.names, m.place x = j := by
    intro l hl hj
    obtain ⟨x, hx, rfl⟩ := List.mem_map.1 hj
    exact ⟨x, hl x hx, rfl⟩
  unfold references at hj
  rw [callers_place h, callees_place h, entity_place h hn] at hj
  simp only [List.mem_append] at hj
  rcases hj with (((((hj | hj) | hj) | hj) | hj) | hj) | hj
  · exact hmap _ (fun x => mem_names_of_mem_bases) hj
  · exact hmap _ (fun x => mem_names_of_mem_subclasses) hj
  · exact hmap _ (fun x hx => List.mem_of_mem_filter hx) hj
  · exact hmap _ (fun x hx => List.mem_of_mem_filter hx) hj
  · obtain ⟨t, ht, rfl⟩ := Option.map_eq_some_iff.1 (Option.mem_toList.1 hj)
    exact ⟨t, mem_known_of_valueAfter (fun x hx => by cases hx) ht, rfl⟩
  · exact hmap _ (fun x => mem_names_of_mem_partners fun c hc => (h.calls c hc).1) hj
  · exact hmap _ (fun x => mem_names_of_mem_partners fun c hc => (h.calls c hc).2) hj

/-- A base is mentioned as often as it gets a subclass. -/
theorem count_bases (h : m.Valid) {c b : String} (hc : c ∈ m.names) (hb : b ∈ m.names) :
    (m.index.entity (m.place c)).bases.count (m.place b) =
      (m.index.entity (m.place b)).subclasses.count (m.place c) := by
  rw [entity_place h hc, entity_place h hb]
  -- both sides count the mentions of `b` as a base of `c`
  calc ((m.allMentions.filterMap (Mention.baseOf? c)).map m.place).count (m.place b)
      = (m.allMentions.filterMap (Mention.baseOf? c)).count b :=
        count_map_place (fun x => mem_names_of_mem_bases) b
    _ = m.allMentions.countP fun e => e = .base c b := by
        rw [List.count_filterMap]
        refine List.countP_congr fun e _ => ?_
        cases e <;> simp
    _ = (m.allMentions.filterMap (Mention.subclassOf? b)).count c := by
        rw [List.count_filterMap]
        refine List.countP_congr fun e _ => ?_
        cases e <;> simp [and_comm]
    _ = ((m.allMentions.filterMap (Mention.subclassOf? b)).map m.place).count (m.place c) :=
        (count_map_place (fun x => mem_names_of_mem_subclasses) c).symm

/-! ### Containment -/

theorem count_filter_names (h : m.Valid) (p : String → Bool) {d : String} (hd : d ∈ m.names) :
    ((m.names.filter p).map m.place).count (m.place d) = if p d then 1 else 0 := by
  have hnodup : m.names.Nodup := nodup_known h.declarable.nodup _
  rw [count_map_place (fun x hx => List.mem_of_mem_filter hx)]
  split_ifs with hp
  · exact List.count_eq_one_of_mem (hnodup.filter p) (List.mem_filter.2 ⟨hd, hp⟩)
  · exact List.count_eq_zero_of_not_mem fun hm => hp (List.mem_filter.1 hm).2

theorem parentText_eq_iff (h : m.Valid) {d p : String} (hd : d ∈ m.names) (hp : p ∈ m.names) :
    parentText d = p ↔
      m.index.nameOf (m.place p) = (m.index.nameOf (m.place d)).parent := by
  rw [nameOf_place h hp, nameOf_place h hd]
  exact Name.parent_text_eq_iff (isDotted_of_mem_names h hp).ne_empty

/-- One name is the other without its last identifier. -/
def LiesIn (ix : Index) (d p : EntityId) : Prop := ix.nameOf p = (ix.nameOf d).parent

instance (ix : Index) (d p : EntityId) : Decidable (LiesIn ix d p) :=
  inferInstanceAs (Decidable (_ = _))

/-- Both entities are modules. -/
def BothModules (ix : Index) (d p : EntityId) : Prop :=
  (ix.entity d).kind = .module ∧ (ix.entity p).kind = .module

instance (ix : Index) (d p : EntityId) : Decidable (BothModules ix d p) :=
  inferInstanceAs (Decidable (_ ∧ _))

theorem count_submodules (h : m.Valid) {d p : String} (hd : d ∈ m.names) (hp : p ∈ m.names) :
    (m.index.entity (m.place p)).submodules.count (m.place d) =
      if LiesIn m.index (m.place d) (m.place p) ∧ BothModules m.index (m.place d) (m.place p)
      then 1 else 0 := by
  have hiff : isSubmodule m.linkedEntity p d = true ↔
      LiesIn m.index (m.place d) (m.place p) ∧ BothModules m.index (m.place d) (m.place p) := by
    unfold isSubmodule LiesIn BothModules
    rw [← parentText_eq_iff h hd hp, entity_place h hd, entity_place h hp]
    simp only [Bool.and_eq_true, decide_eq_true_eq, and_assoc]
    rfl
  rw [entity_place h hp]
  refine (count_filter_names h _ hd).trans ?_
  simp only [hiff]

theorem count_members (h : m.Valid) {d p : String} (hd : d ∈ m.names) (hp : p ∈ m.names) :
    (m.index.entity (m.place p)).members.count (m.place d) =
      if LiesIn m.index (m.place d) (m.place p) ∧
        (m.index.entity (m.place p)).isNamespace = true ∧
        ¬ BothModules m.index (m.place d) (m.place p)
      then 1 else 0 := by
  have hiff : isMember m.linkedEntity p d = true ↔ LiesIn m.index (m.place d) (m.place p) ∧
      (m.index.entity (m.place p)).isNamespace = true ∧
      ¬ BothModules m.index (m.place d) (m.place p) := by
    unfold isMember LiesIn BothModules
    rw [← parentText_eq_iff h hd hp, entity_place h hd, entity_place h hp]
    simp only [Bool.and_eq_true, Bool.not_eq_true', Bool.and_eq_false_iff, decide_eq_true_eq,
      decide_eq_false_iff_not, and_assoc, not_and_or]
    rfl
  rw [entity_place h hp]
  refine (count_filter_names h _ hd).trans ?_
  simp only [hiff]
  rw [entity_place h hp]

theorem isNamespace_of_bothModules {ix : Index} {d p : EntityId} (h : BothModules ix d p) :
    (ix.entity p).isNamespace = true := by
  simp [Entity.isNamespace, h.2]

/-- Everything that lies in a namespace is listed there once. -/
theorem count_contents (h : m.Valid) {d p : String} (hd : d ∈ m.names) (hp : p ∈ m.names) :
    ((m.index.entity (m.place p)).submodules ++ (m.index.entity (m.place p)).members).count
      (m.place d) = if LiesIn m.index (m.place d) (m.place p) ∧
        (m.index.entity (m.place p)).isNamespace = true then 1 else 0 := by
  rw [List.count_append, count_submodules h hd hp, count_members h hd hp]
  by_cases hb : BothModules m.index (m.place d) (m.place p)
  · simp [hb, isNamespace_of_bothModules hb]
  · simp [hb]

/-- One entity lists another as a submodule or a member. -/
def Contains (ix : Index) (p d : EntityId) : Prop :=
  p ∈ ix.listed ∧ d ∈ (ix.entity p).submodules ++ (ix.entity p).members

theorem mem_listed_of_mem_contents (h : m.Valid) {p d : EntityId} (hp : p ∈ m.index.listed)
    (hd : d ∈ (m.index.entity p).submodules ++ (m.index.entity p).members) :
    d ∈ m.index.listed := by
  obtain ⟨n, hn, rfl⟩ := (mem_listed_iff_place h).1 hp
  refine (mem_listed_iff_place h).2 (exists_of_mem_references h hn ?_)
  simp only [references, List.mem_append] at hd ⊢
  tauto

theorem liesIn_of_contains (h : m.Valid) {p d : EntityId} (hc : Contains m.index p d) :
    d ∈ m.index.listed ∧ LiesIn m.index d p := by
  obtain ⟨hp, hd⟩ := hc
  have hd' := mem_listed_of_mem_contents h hp hd
  obtain ⟨np, hnp, rfl⟩ := (mem_listed_iff_place h).1 hp
  obtain ⟨nd, hnd, rfl⟩ := (mem_listed_iff_place h).1 hd'
  have hpos := List.count_pos_iff.2 hd
  rw [count_contents h hnd hnp] at hpos
  refine ⟨hd', ?_⟩
  by_contra hl
  simp [hl] at hpos

/-- Inside each other, names get longer. -/
theorem length_lt_of_contains (h : m.Valid) {p d : EntityId} (hc : Contains m.index p d) :
    (m.index.nameOf p).parts.length < (m.index.nameOf d).parts.length := by
  obtain ⟨hd, hl⟩ := liesIn_of_contains h hc
  obtain ⟨n, hn, rfl⟩ := (mem_listed_iff_place h).1 hd
  have hne := Name.parts_parse_ne_nil (isDotted_of_mem_names h hn).ne_empty
  have hpos := List.length_pos_iff.2 hne
  rw [LiesIn] at hl
  rw [hl, nameOf_place h hn, Name.parent, List.length_dropLast]
  omega

theorem not_transGen_contains (h : m.Valid) (i : EntityId) :
    ¬ Relation.TransGen (Contains m.index) i i := by
  -- every step inwards adds an identifier to the name
  have hlt : ∀ j, Relation.TransGen (Contains m.index) i j →
      (m.index.nameOf i).parts.length < (m.index.nameOf j).parts.length := by
    intro j hj
    induction hj with
    | single hc => exact length_lt_of_contains h hc
    | tail _ hc ih => exact ih.trans (length_lt_of_contains h hc)
  exact fun hi => lt_irrefl _ (hlt i hi)

/-! ### The whole -/

/-- What holds of the index of a model. -/
structure Consistent (m : Model) (ix : Index) : Prop where
  /-- No two entities have the same name. -/
  distinct : (ix.listed.map ix.nameOf).Nodup
  dotted : ∀ i ∈ ix.listed, Validation.IsDotted (ix.nameOf i).text
  /-- Looking up a name finds exactly the entity of that name. -/
  lookup : ∀ n i, ix.lookup n = some i ↔ i ∈ ix.listed ∧ (ix.nameOf i).text = n
  /-- The described entities are followed by one for each other base. -/
  names : ix.listed.map (fun i => (ix.nameOf i).text) = declared m.entities ++ m.outsiders
  described : ∀ (k : ℕ) s, m.entities[k]? = some s → ∃ i, ix.listed[k]? = some i ∧
    ix.nameOf i = Name.parse s.title ∧
    EntityKind.parse? s.kind.lossy = some (ix.entity i).kind
  outside : ∀ i ∈ ix.listed.drop m.entities.length, (ix.entity i).kind = .classType
  /-- Whatever is referred to is found under its name. -/
  registered : ∀ i ∈ ix.listed, ∀ j ∈ references ix i, ix.lookup (ix.nameOf j).text = some j
  inverse : ∀ c ∈ ix.listed, ∀ b ∈ ix.listed,
    (ix.entity c).bases.count b = (ix.entity b).subclasses.count c
  submodules : ∀ d ∈ ix.listed, ∀ p ∈ ix.listed, (ix.entity p).submodules.count d =
    if LiesIn ix d p ∧ BothModules ix d p then 1 else 0
  members : ∀ d ∈ ix.listed, ∀ p ∈ ix.listed, (ix.entity p).members.count d =
    if LiesIn ix d p ∧ (ix.entity p).isNamespace = true ∧ ¬ BothModules ix d p then 1 else 0
  /-- An entity stands in one list of one other entity at most. -/
  once : ∀ p ∈ ix.listed, ∀ d, ((ix.entity p).submodules ++ (ix.entity p).members).count d ≤ 1
  container : ∀ p q d, Contains ix p d → Contains ix q d → p = q
  acyclic : ∀ i, ¬ Relation.TransGen (Contains ix) i i
  packages : ∀ p ∈ ix.listed, (ix.entity p).submodules ≠ [] → (ix.entity p).isPackage = true

theorem packages_index (h : m.Valid) {n : String} (hn : n ∈ m.names)
    (hs : (m.index.entity (m.place n)).submodules ≠ []) :
    (m.index.entity (m.place n)).isPackage = true := by
  rw [entity_place h hn] at hs ⊢
  have hfilter : m.names.filter (isSubmodule m.linkedEntity n) ≠ [] :=
    fun he => hs (List.map_eq_nil_iff.2 he)
  obtain ⟨d, hd⟩ := List.exists_mem_of_ne_nil _ hfilter
  obtain ⟨hd, hsub⟩ := List.mem_filter.1 hd
  have hany : m.names.any (isSubmodule m.linkedEntity n) = true := List.any_eq_true.2 ⟨d, hd, hsub⟩
  change ((m.linkedEntity n).isPackage || m.names.any (isSubmodule m.linkedEntity n)) = true
  rw [hany, Bool.or_true]

theorem consistent_index (h : m.Valid) : Consistent m m.index where
  distinct := by
    rw [map_nameOf_listed h]
    exact (nodup_known h.declarable.nodup _).map Name.parse_injective
  dotted i hi := by
    obtain ⟨n, hn, rfl⟩ := (mem_listed_iff_place h).1 hi
    rw [nameOf_place h hn, Name.text_parse]
    exact isDotted_of_mem_names h hn
  lookup n i := by
    rw [lookup_eq_some_iff_place h, mem_listed_iff_place h]
    constructor
    · rintro ⟨hn, rfl⟩
      rw [nameOf_place h hn, Name.text_parse]
      exact ⟨⟨n, hn, rfl⟩, rfl⟩
    · rintro ⟨⟨n', hn', rfl⟩, htext⟩
      rw [nameOf_place h hn', Name.text_parse] at htext
      exact ⟨htext ▸ hn', by rw [htext]⟩
  names := by
    have hmap := congrArg (List.map Name.text) (map_nameOf_listed h)
    rw [List.map_map, List.map_map] at hmap
    refine hmap.trans ?_
    simp only [Function.comp_def, Name.text_parse, List.map_id', names_eq]
  described k s hs := ⟨k, listed_described h hs⟩
  outside i hi := kind_of_mem_drop h hi
  registered i hi j hj := by
    obtain ⟨n, hn, rfl⟩ := (mem_listed_iff_place h).1 hi
    obtain ⟨x, hx, rfl⟩ := exists_of_mem_references h hn hj
    rw [nameOf_place h hx, Name.text_parse, lookup_eq_some_iff_place h]
    exact ⟨hx, rfl⟩
  inverse c hc b hb := by
    obtain ⟨nc, hnc, rfl⟩ := (mem_listed_iff_place h).1 hc
    obtain ⟨nb, hnb, rfl⟩ := (mem_listed_iff_place h).1 hb
    exact count_bases h hnc hnb
  submodules d hd p hp := by
    obtain ⟨nd, hnd, rfl⟩ := (mem_listed_iff_place h).1 hd
    obtain ⟨np, hnp, rfl⟩ := (mem_listed_iff_place h).1 hp
    exact count_submodules h hnd hnp
  members d hd p hp := by
    obtain ⟨nd, hnd, rfl⟩ := (mem_listed_iff_place h).1 hd
    obtain ⟨np, hnp, rfl⟩ := (mem_listed_iff_place h).1 hp
    exact count_members h hnd hnp
  once p hp d := by
    by_cases hd : d ∈ (m.index.entity p).submodules ++ (m.index.entity p).members
    · obtain ⟨nd, hnd, rfl⟩ :=
        (mem_listed_iff_place h).1 (mem_listed_of_mem_contents h hp hd)
      obtain ⟨np, hnp, rfl⟩ := (mem_listed_iff_place h).1 hp
      rw [count_contents h hnd hnp]
      split_ifs <;> omega
    · rw [List.count_eq_zero_of_not_mem hd]
      exact Nat.zero_le 1
  container p q d hp hq := by
    have hname : m.index.nameOf p = m.index.nameOf q :=
      (liesIn_of_contains h hp).2.trans (liesIn_of_contains h hq).2.symm
    obtain ⟨np, hnp, rfl⟩ := (mem_listed_iff_place h).1 hp.1
    obtain ⟨nq, hnq, rfl⟩ := (mem_listed_iff_place h).1 hq.1
    rw [nameOf_place h hnp, nameOf_place h hnq] at hname
    rw [Name.parse_injective hname]
  acyclic := not_transGen_contains h
  packages p hp hs := by
    obtain ⟨n, hn, rfl⟩ := (mem_listed_iff_place h).1 hp
    exact packages_index h hn hs

/-- Every index that is built of a model is closed under references and consistent. -/
theorem consistent_of_build (m : Model) (ix : Index) (h : m.build = .ok ix) : Consistent m ix := by
  obtain ⟨hv, rfl⟩ := build_eq_ok_iff.1 h
  exact consistent_index hv

/-- A package with a class of three bases, two of them the same class from outside. -/
def sample : Model where
  entities :=
    [{ name := "p", kind := "module" },
     { name := "p.m", kind := "module", imports := ["os.path"] },
     { name := "p.m.C", kind := "class", bases := ["p.m.B", "ext.B", "ext.B"] },
     { name := "p.m.B", kind := "class", bases := ["ext.B"] },
     { name := "p.f", kind := "function" },
     { name := "p.v", kind := "variable", value := "p.f" }]
  calls := [⟨"p.f", "p.m.C"⟩]

theorem consistent_of_build_sample : sample.build = .ok sample.index ∧ sample.index.size = 7 ∧
    Consistent sample sample.index := by
  have h : sample.build = .ok sample.index := by decide +kernel
  exact ⟨h, by decide +kernel, consistent_of_build sample sample.index h⟩

end Model
end ApiDiagrams
