import ApiDiagrams.Proofs.Model.Consistency

/-!
# The order of the descriptions of a model

Whether a model can be built does not depend on the order in which it describes its entities, and
neither does what the index says of them by name, with one exception. The value of a variable is
looked up while bases from outside still join the index: a value that names such a base is found
only if an entity described before mentions it, or the variable itself.

* `Reorders`: one model is another with its descriptions in a different order;
* `SameShape`: two indexes say the same by name, values apart;
* `SameValues`: the same values by name;
* `Settled`: no value depends on the order;
* `build_of_reorders`: the statement above;
* `value_depends_on_order`: two orders of one model with different values.
-/

namespace ApiDiagrams
namespace Model

/-- One model is another with its descriptions in a different order. -/
structure Reorders (m' m : Model) : Prop where
  entities : m'.entities.Perm m.entities
  calls : m'.calls = m.calls
  profiled : m'.profiled = m.profiled

theorem Reorders.symm {m m' : Model} (h : Reorders m' m) : Reorders m m' :=
  ⟨h.entities.symm, h.calls.symm, h.profiled.symm⟩

variable {m m' : Model}

/-! ### Values -/

/-- The value of a name, by name. -/
def valueName (m : Model) (n : String) : Option String :=
  valueAfter (declared m.entities) n m.allMentions none

/-- The description mentions the name as a base. -/
def MentionsBase (s : EntitySpec) (b : String) : Prop := ∃ r ∈ s.bases, r.lossy = b

instance (s : EntitySpec) (b : String) : Decidable (MentionsBase s b) :=
  inferInstanceAs (Decidable (∃ r ∈ s.bases, r.lossy = b))

theorem value_mem_mentions_iff {s : EntitySpec} {n t : String} :
    .value n t ∈ s.mentions ↔ s.title = n ∧ s.value = t ∧ s.value ≠ "" := by
  unfold EntitySpec.mentions
  by_cases hv : s.value = ""
  · simp [hv]
  · simp [hv, eq_comm]

/-- Only the description of a name says what its value is. -/
theorem valueAfter_flatMap_of_ne {names : List String} {n : String} {specs : List EntitySpec}
    (h : ∀ s ∈ specs, s.title ≠ n) (v : Option String) :
    valueAfter names n (specs.flatMap EntitySpec.mentions) v = v := by
  refine valueAfter_of_not_mem (fun t ht => ?_) v
  obtain ⟨s, hs, ht⟩ := List.mem_flatMap.1 ht
  exact h s hs (value_mem_mentions_iff.1 ht).1

theorem valueAfter_mentions (names : List String) (s : EntitySpec) (v : Option String) :
    valueAfter names s.title s.mentions v =
      if s.value = "" then v
      else if s.value ∈ names ∨ MentionsBase s s.value then some s.value else none := by
  -- the value is mentioned last, after the bases of the same entity
  let links := s.bases.map (fun b => Mention.base s.title b.lossy) ++
    s.imports.map fun i => Mention.imported s.title i.lossy
  have hlinks : ∀ t, .value s.title t ∉ links := by simp [links]
  have hknown : s.value ∈ known names links ↔ s.value ∈ names ∨ MentionsBase s s.value := by
    simp [mem_known_iff, links, MentionsBase]
  rw [EntitySpec.mentions, valueAfter_append, valueAfter_of_not_mem hlinks]
  by_cases hv : s.value = ""
  · rw [if_pos hv, if_pos hv]
    rfl
  · rw [if_neg hv, if_neg hv]
    simp only [valueAfter, revalue, if_true, ← hknown]
    rfl

theorem title_ne_of_split (hd : (declared m.entities).Nodup) {before after : List EntitySpec}
    {s : EntitySpec} (hs : m.entities = before ++ s :: after) :
    (∀ t ∈ before, t.title ≠ s.title) ∧ ∀ t ∈ after, t.title ≠ s.title := by
  rw [hs, declared, List.map_append, List.map_cons, List.nodup_append, List.nodup_cons] at hd
  obtain ⟨-, ⟨hs', -⟩, hdisjoint⟩ := hd
  exact ⟨fun t ht => hdisjoint _ (List.mem_map_of_mem ht) _ List.mem_cons_self,
    fun t ht he => hs' (he ▸ List.mem_map_of_mem ht)⟩

/-- A value is found when its name is described, or mentioned as a base by the entity itself or by
one described before it. -/
theorem valueName_of_split (hd : (declared m.entities).Nodup) {before after : List EntitySpec}
    {s : EntitySpec} (hs : m.entities = before ++ s :: after) :
    m.valueName s.title =
      if s.value ≠ "" ∧ (s.value ∈ declared m.entities ∨ ∃ t ∈ before ++ [s],
        MentionsBase t s.value) then some s.value else none := by
  have hall : m.allMentions = before.flatMap EntitySpec.mentions ++ s.mentions ++
      after.flatMap EntitySpec.mentions := by
    simp [allMentions, hs]
  obtain ⟨hbefore, hafter⟩ := title_ne_of_split hd hs
  have hknown : s.value ∈ known (declared m.entities) (before.flatMap EntitySpec.mentions) ↔
      s.value ∈ declared m.entities ∨ ∃ t ∈ before, MentionsBase t s.value := by
    simp [mem_known_iff, base_mem_mentions_iff, MentionsBase]
  rw [valueName, hall, valueAfter_append, valueAfter_append, valueAfter_flatMap_of_ne hafter,
    valueAfter_flatMap_of_ne hbefore, valueAfter_mentions]
  have hmentioned : (∃ t ∈ before ++ [s], MentionsBase t s.value) ↔
      (∃ t ∈ before, MentionsBase t s.value) ∨ MentionsBase s s.value := by
    simp [or_and_right, exists_or]
  by_cases hv : s.value = ""
  · simp [hv]
  · simp only [hv, if_false, hknown, hmentioned, or_assoc, ne_eq, not_false_eq_true, true_and]

/-- A name that is not described has no value. -/
theorem valueName_of_not_mem {n : String} (hn : n ∉ declared m.entities) :
    m.valueName n = none :=
  valueAfter_flatMap_of_ne (fun s hs he => hn (List.mem_map.2 ⟨s, hs, he⟩)) none

/-! ### What does not depend on the order -/

theorem Reorders.mem_declared_iff (h : Reorders m' m) {n : String} :
    n ∈ declared m'.entities ↔ n ∈ declared m.entities := (h.entities.map _).mem_iff

theorem Reorders.declarable (h : Reorders m' m) (hd : Declarable m.entities) :
    Declarable m'.entities where
  names s hs := hd.names s (h.entities.mem_iff.1 hs)
  kinds s hs := hd.kinds s (h.entities.mem_iff.1 hs)
  nodup := (h.entities.map _).nodup_iff.2 hd.nodup

theorem Reorders.mem_names_iff (h : Reorders m' m) {n : String} : n ∈ m'.names ↔ n ∈ m.names := by
  rw [names, names, mem_known_iff, mem_known_iff, h.mem_declared_iff]
  simp only [base_mem_allMentions_iff, h.entities.mem_iff]

theorem Reorders.perm_names (h : Reorders m' m) (hd : Declarable m.entities) :
    m'.names.Perm m.names :=
  (List.perm_ext_iff_of_nodup (nodup_known (h.declarable hd).nodup _)
    (nodup_known hd.nodup _)).2 fun _ => h.mem_names_iff

theorem Reorders.stub_eq (h : Reorders m' m) (hd : Declarable m.entities) :
    stub m'.entities = stub m.entities := by
  funext n
  by_cases hn : n ∈ declared m.entities
  · obtain ⟨s, hs, rfl⟩ := List.mem_map.1 hn
    rw [stub_of_mem hd.nodup hs,
      stub_of_mem (h.declarable hd).nodup (h.entities.mem_iff.2 hs)]
  · rw [stub_of_not_mem hn, stub_of_not_mem (mt h.mem_declared_iff.1 hn)]

theorem filterMap_flatMap_of_ne {α : Type} {g : Mention → Option α} {n : String}
    (hg : ∀ e, e.owner ≠ n → g e = none) {specs : List EntitySpec}
    (h : ∀ s ∈ specs, s.title ≠ n) : (specs.flatMap EntitySpec.mentions).filterMap g = [] := by
  refine List.filterMap_eq_nil_iff.2 fun e he => hg e ?_
  obtain ⟨s, hs, he⟩ := List.mem_flatMap.1 he
  rw [s.owner_of_mem_mentions he]
  exact h s hs

/-- What is read off the mentions of one name is read off its description. -/
theorem filterMap_allMentions {α : Type} {g : Mention → Option α} (hd : (declared m.entities).Nodup)
    {s : EntitySpec} (hs : s ∈ m.entities) (hg : ∀ e, e.owner ≠ s.title → g e = none) :
    m.allMentions.filterMap g = s.mentions.filterMap g := by
  obtain ⟨before, after, hsplit⟩ := List.append_of_mem hs
  obtain ⟨hbefore, hafter⟩ := title_ne_of_split hd hsplit
  rw [allMentions, hsplit, List.flatMap_append, List.flatMap_cons, List.filterMap_append,
    List.filterMap_append, filterMap_flatMap_of_ne hg hbefore, filterMap_flatMap_of_ne hg hafter,
    List.nil_append, List.append_nil]

theorem Reorders.filterMap_eq (h : Reorders m' m) (hd : Declarable m.entities) {α : Type}
    {g : Mention → Option α} {n : String} (hg : ∀ e, e.owner ≠ n → g e = none) :
    m'.allMentions.filterMap g = m.allMentions.filterMap g := by
  by_cases hn : n ∈ declared m.entities
  · obtain ⟨s, hs, rfl⟩ := List.mem_map.1 hn
    rw [filterMap_allMentions hd.nodup hs hg,
      filterMap_allMentions (h.declarable hd).nodup (h.entities.mem_iff.2 hs) hg]
  · have hne : ∀ s ∈ m.entities, s.title ≠ n := fun s hs he => hn (List.mem_map.2 ⟨s, hs, he⟩)
    rw [allMentions, allMentions, filterMap_flatMap_of_ne hg hne,
      filterMap_flatMap_of_ne hg fun s hs => hne s (h.entities.mem_iff.1 hs)]

theorem Reorders.perm_allMentions (h : Reorders m' m) : m'.allMentions.Perm m.allMentions :=
  h.entities.flatMap_right _

theorem Reorders.kind_eq (h : Reorders m' m) (hd : Declarable m.entities) (n : String) :
    (m'.linkedEntity n).kind = (m.linkedEntity n).kind := by
  change (stub m'.entities n).kind = (stub m.entities n).kind
  rw [h.stub_eq hd]

/-! ### Cycles of variables -/

theorem eq_of_valueName (hd : (declared m.entities).Nodup) {s : EntitySpec}
    (hs : s ∈ m.entities) {t : String} (ht : m.valueName s.title = some t) : s.value = t := by
  obtain ⟨before, after, hsplit⟩ := List.append_of_mem hs
  rw [valueName_of_split hd hsplit] at ht
  split_ifs at ht
  exact Option.some.inj ht

theorem valueName_of_declared (hd : (declared m.entities).Nodup) {s : EntitySpec}
    (hs : s ∈ m.entities) (hv : s.value ∈ declared m.entities) :
    m.valueName s.title = if s.value ≠ "" then some s.value else none := by
  obtain ⟨before, after, hsplit⟩ := List.append_of_mem hs
  rw [valueName_of_split hd hsplit]
  simp [hv]

/-- A value that depends on the order is a class from outside. -/
theorem Reorders.valueName_eq_or (h : Reorders m' m) (hd : Declarable m.entities) (n : String) :
    m'.valueName n = m.valueName n ∨
      ((∀ t, m'.valueName n = some t → t ∉ declared m.entities) ∧
        ∀ t, m.valueName n = some t → t ∉ declared m.entities) := by
  have hd' := h.declarable hd
  by_cases hn : n ∈ declared m.entities
  · obtain ⟨s, hs, rfl⟩ := List.mem_map.1 hn
    have hs' := h.entities.mem_iff.2 hs
    by_cases hv : s.value ∈ declared m.entities
    · left
      rw [valueName_of_declared hd.nodup hs hv,
        valueName_of_declared hd'.nodup hs' (h.mem_declared_iff.2 hv)]
    · right
      exact ⟨fun t ht => eq_of_valueName hd'.nodup hs' ht ▸ hv,
        fun t ht => eq_of_valueName hd.nodup hs ht ▸ hv⟩
  · left
    rw [valueName_of_not_mem hn, valueName_of_not_mem (mt h.mem_declared_iff.1 hn)]

theorem entity_linkedIndex (hd : Declarable m.entities) {n : String} (hn : n ∈ m.names) :
    m.linkedIndex.entity (m.place n) = m.linkedEntity n :=
  (tabulates_linkedIndex hd).entity_eq ((m.places hd.nodup).getElem? hn)

theorem mem_names_of_valueName {n t : String} (h : m.valueName n = some t) : t ∈ m.names :=
  mem_known_of_valueAfter (fun x hx => by cases hx) h

/-- Following variables ends at a class from outside. -/
theorem cyclesFrom_outside (hd : Declarable m.entities) {n : String} (hn : n ∈ m.names)
    (hout : n ∉ declared m.entities) (fuel : ℕ) (seen : List EntityId) :
    m.linkedIndex.cyclesFrom fuel seen (m.place n) = false := by
  cases fuel with
  | zero => rfl
  | succ fuel =>
    have hkind : (m.linkedEntity n).kind = .classType := by
      change (stub m.entities n).kind = _
      rw [stub_of_not_mem hout]
      rfl
    rw [Index.cyclesFrom, entity_linkedIndex hd hn, hkind, if_neg (by decide)]

/-- Following a variable: one step by name. -/
theorem cyclesFrom_succ (hd : Declarable m.entities) {n : String} (hn : n ∈ m.names)
    {seen : List String} (hseen : ∀ x ∈ seen, x ∈ m.names) (fuel : ℕ) :
    m.linkedIndex.cyclesFrom (fuel + 1) (seen.map m.place) (m.place n) =
      if (m.linkedEntity n).kind = .variable then
        if n ∈ seen then true
        else (m.valueName n).any fun t =>
          m.linkedIndex.cyclesFrom fuel ((n :: seen).map m.place) (m.place t)
      else false := by
  have hmem : m.place n ∈ seen.map m.place ↔ n ∈ seen := by
    constructor
    · intro hm
      obtain ⟨x, hx, he⟩ := List.mem_map.1 hm
      exact place_inj (hseen x hx) he ▸ hx
    · exact List.mem_map_of_mem
  have hvalue : (m.linkedEntity n).value = (m.valueName n).map m.place := rfl
  rw [Index.cyclesFrom, entity_linkedIndex hd hn, hvalue]
  simp only [hmem]
  cases m.valueName n <;> rfl

theorem Reorders.cyclesFrom_eq (h : Reorders m' m) (hd : Declarable m.entities) (fuel : ℕ)
    {seen : List String} (hseen : ∀ x ∈ seen, x ∈ m.names) {n : String} (hn : n ∈ m.names) :
    m'.linkedIndex.cyclesFrom fuel (seen.map m'.place) (m'.place n) =
      m.linkedIndex.cyclesFrom fuel (seen.map m.place) (m.place n) := by
  induction fuel generalizing seen n with
  | zero => rfl
  | succ fuel ih =>
    have hd' := h.declarable hd
    have hseen' : ∀ x ∈ seen, x ∈ m'.names := fun x hx => h.mem_names_iff.2 (hseen x hx)
    have hnext : ∀ x ∈ n :: seen, x ∈ m.names := by
      intro x hx
      rcases List.mem_cons.1 hx with rfl | hx
      · exact hn
      · exact hseen x hx
    rw [cyclesFrom_succ hd hn hseen, cyclesFrom_succ hd' (h.mem_names_iff.2 hn) hseen',
      h.kind_eq hd]
    congr 2
    rcases h.valueName_eq_or hd n with heq | ⟨hout', hout⟩
    · rw [heq]
      cases hv : m.valueName n with
      | none => rfl
      | some t => exact ih hnext (mem_names_of_valueName hv)
    · -- values that differ lead out of the model
      have hfalse : (m.valueName n).any (fun t => m.linkedIndex.cyclesFrom fuel
          ((n :: seen).map m.place) (m.place t)) = false := by
        cases hv : m.valueName n with
        | none => rfl
        | some t => exact cyclesFrom_outside hd (mem_names_of_valueName hv) (hout t hv) _ _
      have hfalse' : (m'.valueName n).any (fun t => m'.linkedIndex.cyclesFrom fuel
          ((n :: seen).map m'.place) (m'.place t)) = false := by
        cases hv : m'.valueName n with
        | none => rfl
        | some t =>
          exact cyclesFrom_outside hd' (mem_names_of_valueName hv)
            (mt h.mem_declared_iff.1 (hout' t hv)) _ _
      rw [hfalse, hfalse']

theorem checkAliases_eq_ok_iff {ix : Index} :
    checkAliases ix = .ok () ↔ ∀ i ∈ ix.listed, ix.isAliasCycle i = false := by
  unfold checkAliases
  cases hf : ix.listed.find? ix.isAliasCycle with
  | none => simpa using hf
  | some i =>
    have hi := List.find?_some hf
    have hmem := List.mem_of_find?_eq_some hf
    simp only [reduceCtorEq, false_iff, not_forall]
    exact ⟨i, hmem, by simp [hi]⟩

theorem Reorders.checkAliases_eq_ok (h : Reorders m' m) (hd : Declarable m.entities)
    (ha : checkAliases m.linkedIndex = .ok ()) : checkAliases m'.linkedIndex = .ok () := by
  rw [checkAliases_eq_ok_iff] at ha ⊢
  intro i hi
  have ht' := tabulates_linkedIndex (h.declarable hd)
  have ht := tabulates_linkedIndex hd
  obtain ⟨n, hn⟩ := ht'.mem_listed_iff.1 hi
  have hplace := m'.places (h.declarable hd).nodup i n hn
  have hmem : n ∈ m.names := h.mem_names_iff.1 (List.mem_of_getElem? hn)
  have hlisted : m.place n ∈ m.linkedIndex.listed :=
    ht.mem_listed_iff.2 ⟨n, (m.places hd.nodup).getElem? hmem⟩
  -- there are as many names in both orders, so variables are followed equally far
  have hsize : m'.linkedIndex.entities.size = m.linkedIndex.entities.size := by
    rw [ht'.size_entities, ht.size_entities, (h.perm_names hd).length_eq]
  have hcycle := h.cyclesFrom_eq hd (m.linkedIndex.entities.size + 2)
    (fun x hx => absurd hx List.not_mem_nil) hmem
  rw [← hplace, Index.isAliasCycle, hsize]
  exact hcycle.trans (ha _ hlisted)

/-- Whether a model can be built does not depend on the order. -/
theorem Reorders.valid (h : Reorders m' m) (hv : m.Valid) : m'.Valid where
  declarable := h.declarable hv.declarable
  linkable s hs := hv.linkable s (h.entities.mem_iff.1 hs)
  noAliasCycle := h.checkAliases_eq_ok hv.declarable hv.noAliasCycle
  calls c hc := by
    rw [h.calls] at hc
    rw [h.mem_names_iff, h.mem_names_iff]
    exact hv.calls c hc

/-! ### Two indexes, by name -/

/-- Two entities of two indexes say the same by name, values apart. -/
structure SameEntity (ix ix' : Index) (i i' : EntityId) : Prop where
  kind : (ix'.entity i').kind = (ix.entity i).kind
  isPackage : (ix'.entity i').isPackage = (ix.entity i).isPackage
  isRoot : (ix'.entity i').isRoot = (ix.entity i).isRoot
  bases : (ix'.entity i').bases.map ix'.nameOf = (ix.entity i).bases.map ix.nameOf
  imports : (ix'.entity i').imports = (ix.entity i).imports
  submodules : ((ix'.entity i').submodules.map ix'.nameOf).Perm
    ((ix.entity i).submodules.map ix.nameOf)
  members : ((ix'.entity i').members.map ix'.nameOf).Perm ((ix.entity i).members.map ix.nameOf)
  subclasses : ((ix'.entity i').subclasses.map ix'.nameOf).Perm
    ((ix.entity i).subclasses.map ix.nameOf)
  callers : (ix'.callers i').map ix'.nameOf = (ix.callers i).map ix.nameOf
  callees : (ix'.callees i').map ix'.nameOf = (ix.callees i).map ix.nameOf

/-- Two indexes say the same by name, values apart. -/
structure SameShape (ix ix' : Index) : Prop where
  names : ∀ n, (ix'.lookup n).isSome = (ix.lookup n).isSome
  hasProfile : ix'.hasProfile = ix.hasProfile
  entities : ∀ n i i', ix.lookup n = some i → ix'.lookup n = some i' → SameEntity ix ix' i i'

/-- Two indexes have the same values by name. -/
def SameValues (ix ix' : Index) : Prop :=
  ∀ n i i', ix.lookup n = some i → ix'.lookup n = some i' →
    (ix'.entity i').value.map ix'.nameOf = (ix.entity i).value.map ix.nameOf

theorem map_nameOf_place (h : m.Valid) {l : List String} (hl : ∀ x ∈ l, x ∈ m.names) :
    (l.map m.place).map m.index.nameOf = l.map Name.parse := by
  rw [List.map_map]
  exact List.map_congr_left fun x hx => nameOf_place h (hl x hx)

/-- The value of an entity, by name. -/
theorem value_place (h : m.Valid) {n : String} (hn : n ∈ m.names) :
    (m.index.entity (m.place n)).value.map m.index.nameOf = (m.valueName n).map Name.parse := by
  have hvalue : (m.entity n).value = (m.valueName n).map m.place := rfl
  rw [entity_place h hn, hvalue]
  cases hv : m.valueName n with
  | none => rfl
  | some t => simp [nameOf_place h (mem_names_of_valueName hv)]

/-- The names that lie in another by a test come in another order. -/
theorem Reorders.perm_filter_names (h : Reorders m' m) (hv : m.Valid) {p p' : String → Bool}
    (hp : ∀ d, p' d = p d) : (((m'.names.filter p').map m'.place).map m'.index.nameOf).Perm
      (((m.names.filter p).map m.place).map m.index.nameOf) := by
  rw [map_nameOf_place hv fun x hx => List.mem_of_mem_filter hx,
    map_nameOf_place (h.valid hv) fun x hx => List.mem_of_mem_filter hx, funext hp]
  exact ((h.perm_names hv.declarable).filter p).map _

theorem Reorders.isSubmodule_eq (h : Reorders m' m) (hd : Declarable m.entities) (p d : String) :
    isSubmodule m'.linkedEntity p d = isSubmodule m.linkedEntity p d := by
  unfold isSubmodule
  rw [h.kind_eq hd, h.kind_eq hd]

theorem Reorders.isMember_eq (h : Reorders m' m) (hd : Declarable m.entities) (p d : String) :
    isMember m'.linkedEntity p d = isMember m.linkedEntity p d := by
  unfold isMember Entity.isNamespace
  rw [h.kind_eq hd, h.kind_eq hd]

theorem baseOf?_of_ne {e : Mention} {n : String} (h : e.owner ≠ n) : e.baseOf? n = none := by
  cases e with
  | base o b => exact if_neg h
  | imported o i => rfl
  | value o t => rfl

theorem importOf?_of_ne {e : Mention} {n : String} (h : e.owner ≠ n) : e.importOf? n = none := by
  cases e with
  | base o b => rfl
  | imported o i => exact if_neg h
  | value o t => rfl

theorem bases_place (h : m.Valid) {n : String} (hn : n ∈ m.names) :
    (m.index.entity (m.place n)).bases.map m.index.nameOf =
      (m.allMentions.filterMap (Mention.baseOf? n)).map Name.parse := by
  rw [entity_place h hn]
  exact map_nameOf_place h fun x => mem_names_of_mem_bases

theorem subclasses_place (h : m.Valid) {n : String} (hn : n ∈ m.names) :
    (m.index.entity (m.place n)).subclasses.map m.index.nameOf =
      (m.allMentions.filterMap (Mention.subclassOf? n)).map Name.parse := by
  rw [entity_place h hn]
  exact map_nameOf_place h fun x => mem_names_of_mem_subclasses

theorem nameOf_callers_place (h : m.Valid) (n : String) :
    (m.index.callers (m.place n)).map m.index.nameOf =
      (partners CallSpec.callee CallSpec.caller m.calls n).map Name.parse := by
  rw [callers_place h]
  exact map_nameOf_place h fun x => mem_names_of_mem_partners fun c hc => (h.calls c hc).1

theorem nameOf_callees_place (h : m.Valid) (n : String) :
    (m.index.callees (m.place n)).map m.index.nameOf =
      (partners CallSpec.caller CallSpec.callee m.calls n).map Name.parse := by
  rw [callees_place h]
  exact map_nameOf_place h fun x => mem_names_of_mem_partners fun c hc => (h.calls c hc).2

/-- The entity of a name is the same in any order, values apart. -/
theorem Reorders.sameEntity (h : Reorders m' m) (hv : m.Valid) {n : String} (hn : n ∈ m.names) :
    SameEntity m.index m'.index (m.place n) (m'.place n) := by
  have hv' := h.valid hv
  have hd := hv.declarable
  have hn' := h.mem_names_iff.2 hn
  have hstub := congrFun (h.stub_eq hd) n
  have hentity := entity_place hv hn
  have hentity' := entity_place hv' hn'
  refine ⟨?_, ?_, ?_, ?_, ?_, ?_, ?_, ?_, ?_, ?_⟩
  · rw [hentity, hentity']
    exact h.kind_eq hd n
  · rw [hentity, hentity']
    change ((stub m'.entities n).isPackage || m'.names.any (isSubmodule m'.linkedEntity n)) =
      ((stub m.entities n).isPackage || m.names.any (isSubmodule m.linkedEntity n))
    rw [hstub, funext (h.isSubmodule_eq hd n), (h.perm_names hd).any_eq]
  · rw [hentity, hentity']
    change (stub m'.entities n).isRoot = (stub m.entities n).isRoot
    rw [hstub]
  · rw [bases_place hv hn, bases_place hv' hn', h.filterMap_eq hd fun e => baseOf?_of_ne]
  · rw [hentity, hentity']
    change (m'.allMentions.filterMap _).map Name.parse = (m.allMentions.filterMap _).map Name.parse
    rw [h.filterMap_eq hd fun e => importOf?_of_ne]
  · rw [hentity, hentity']
    exact h.perm_filter_names hv (h.isSubmodule_eq hd n)
  · rw [hentity, hentity']
    exact h.perm_filter_names hv (h.isMember_eq hd n)
  · rw [subclasses_place hv hn, subclasses_place hv' hn']
    exact (h.perm_allMentions.filterMap _).map _
  · rw [nameOf_callers_place hv, nameOf_callers_place hv', h.calls]
  · rw [nameOf_callees_place hv, nameOf_callees_place hv', h.calls]

theorem isSome_foldl_note (place : String → EntityId) (calls : List CallSpec)
    (p : Option Profile) :
    (calls.foldl (note place) p).isSome = (p.isSome || !calls.isEmpty) := by
  induction calls generalizing p with
  | nil => simp
  | cons c calls ih => simp [ih, note]

theorem Reorders.sameShape (h : Reorders m' m) (hv : m.Valid) : SameShape m.index m'.index where
  names n := by
    rw [Bool.eq_iff_iff, Option.isSome_iff_exists, Option.isSome_iff_exists]
    simp only [lookup_eq_some_iff_place hv, lookup_eq_some_iff_place (h.valid hv),
      exists_eq_right', h.mem_names_iff]
  hasProfile := by
    change m'.profile.isSome = m.profile.isSome
    rw [profile, profile, isSome_foldl_note, isSome_foldl_note, h.calls, h.profiled]
  entities n i i' hi hi' := by
    obtain ⟨hn, rfl⟩ := (lookup_eq_some_iff_place hv).1 hi
    obtain ⟨-, rfl⟩ := (lookup_eq_some_iff_place (h.valid hv)).1 hi'
    exact h.sameEntity hv hn

/-! ### Values and the order -/

/-- A value that names a base from outside is mentioned by the same entity as its base. -/
def Settled (m : Model) : Prop :=
  ∀ s ∈ m.entities, s.value ∉ declared m.entities →
    (∃ t ∈ m.entities, MentionsBase t s.value) → MentionsBase s s.value

instance (m : Model) : Decidable m.Settled :=
  inferInstanceAs (Decidable (∀ s ∈ m.entities, s.value ∉ declared m.entities →
    (∃ t ∈ m.entities, MentionsBase t s.value) → MentionsBase s s.value))

theorem Reorders.settled (h : Reorders m' m) (hs : m.Settled) : m'.Settled := by
  intro s hsm hv hex
  simp only [h.entities.mem_iff, h.mem_declared_iff] at hsm hv hex
  exact hs s hsm hv hex

theorem Settled.valueName_eq (hd : (declared m.entities).Nodup) (hm : m.Settled) {s : EntitySpec}
    (hs : s ∈ m.entities) : m.valueName s.title =
      if s.value ≠ "" ∧ (s.value ∈ declared m.entities ∨ MentionsBase s s.value)
      then some s.value else none := by
  obtain ⟨before, after, hsplit⟩ := List.append_of_mem hs
  have hsub : ∀ t ∈ before ++ [s], t ∈ m.entities := by
    intro t ht
    rw [hsplit]
    rcases List.mem_append.1 ht with ht | ht
    · exact List.mem_append_left _ ht
    · rw [List.mem_singleton.1 ht]
      simp
  have hiff : (s.value ∈ declared m.entities ∨ ∃ t ∈ before ++ [s], MentionsBase t s.value) ↔
      (s.value ∈ declared m.entities ∨ MentionsBase s s.value) := by
    by_cases hv : s.value ∈ declared m.entities
    · simp only [hv, true_or]
    · simp only [hv, false_or]
      constructor
      · rintro ⟨t, ht, hb⟩
        exact hm s hs hv ⟨t, hsub t ht, hb⟩
      · exact fun hb => ⟨s, by simp, hb⟩
  rw [valueName_of_split hd hsplit]
  simp only [hiff]

theorem Reorders.valueName_eq (h : Reorders m' m) (hd : Declarable m.entities) (hm : m.Settled)
    (n : String) : m'.valueName n = m.valueName n := by
  by_cases hn : n ∈ declared m.entities
  · obtain ⟨s, hs, rfl⟩ := List.mem_map.1 hn
    rw [hm.valueName_eq hd.nodup hs,
      (h.settled hm).valueName_eq (h.declarable hd).nodup (h.entities.mem_iff.2 hs)]
    simp only [h.mem_declared_iff]
  · rw [valueName_of_not_mem hn, valueName_of_not_mem (mt h.mem_declared_iff.1 hn)]

theorem Reorders.sameValues_iff (h : Reorders m' m) (hv : m.Valid) :
    SameValues m.index m'.index ↔ ∀ n ∈ m.names, m'.valueName n = m.valueName n := by
  have hv' := h.valid hv
  have hinj := Option.map_injective Name.parse_injective
  constructor
  · intro hs n hn
    have hn' := h.mem_names_iff.2 hn
    have heq := hs n _ _ ((lookup_eq_some_iff_place hv).2 ⟨hn, rfl⟩)
      ((lookup_eq_some_iff_place hv').2 ⟨hn', rfl⟩)
    rw [value_place hv hn, value_place hv' hn'] at heq
    exact hinj heq
  · intro hs n i i' hi hi'
    obtain ⟨hn, rfl⟩ := (lookup_eq_some_iff_place hv).1 hi
    obtain ⟨hn', rfl⟩ := (lookup_eq_some_iff_place hv').1 hi'
    rw [value_place hv hn, value_place hv' hn', hs n hn]

theorem value_ne_empty (hv : m.Valid) {b : String} (h : ∃ t ∈ m.entities, MentionsBase t b) :
    b ≠ "" := by
  obtain ⟨t, ht, r, hr, rfl⟩ := h
  exact (Validation.isDotted_lossy ((hv.linkable t ht).bases r hr)).ne_empty

/-- If no order changes a value then no value depends on the order: compare the orders in which a
variable comes first and last. -/
theorem settled_of_forall_reorders (hv : m.Valid)
    (h : ∀ m', Reorders m' m → SameValues m.index m'.index) : m.Settled := by
  intro s hs hout hmentioned
  by_contra hown
  obtain ⟨before, after, hsplit⟩ := List.append_of_mem hs
  have hne := value_ne_empty hv hmentioned
  have hname : s.title ∈ m.names := mem_known_iff.2 (Or.inl (List.mem_map_of_mem hs))
  let first : Model := { m with entities := [] ++ s :: (before ++ after) }
  let last : Model := { m with entities := before ++ after ++ s :: [] }
  have hfirst : Reorders first m := by
    refine ⟨?_, rfl, rfl⟩
    rw [hsplit]
    exact List.perm_middle.symm
  have hlast : Reorders last m := by
    refine ⟨?_, rfl, rfl⟩
    rw [hsplit]
    exact (List.perm_append_singleton s _).trans List.perm_middle.symm
  -- first, nobody has mentioned the value yet; last, everybody has
  have hnone : first.valueName s.title = none := by
    have hd := hfirst.declarable hv.declarable
    rw [valueName_of_split hd.nodup rfl, if_neg]
    rintro ⟨-, hv | ⟨t, ht, hb⟩⟩
    · exact hout (hfirst.mem_declared_iff.1 hv)
    · rw [List.nil_append, List.mem_singleton] at ht
      exact hown (ht ▸ hb)
  have hsome : last.valueName s.title = some s.value := by
    have hd := hlast.declarable hv.declarable
    obtain ⟨t, ht, hb⟩ := hmentioned
    rw [valueName_of_split hd.nodup rfl, if_pos]
    exact ⟨hne, Or.inr ⟨t, hlast.entities.mem_iff.2 ht, hb⟩⟩
  have hfirst' := (hfirst.sameValues_iff hv).1 (h first hfirst) _ hname
  have hlast' := (hlast.sameValues_iff hv).1 (h last hlast) _ hname
  rw [hnone] at hfirst'
  rw [hsome, ← hfirst'] at hlast'
  cases hlast'

/-! ### The whole -/

/-- The order of the descriptions does not matter for whether a model can be built, nor for what
the index says by name apart from values; and it does not matter for values exactly when the model
is settled. -/
theorem build_of_reorders (m : Model) :
    (∀ m', Reorders m' m → ((∃ ix, m.build = .ok ix) ↔ ∃ ix', m'.build = .ok ix')) ∧
    (∀ m' ix ix', Reorders m' m → m.build = .ok ix → m'.build = .ok ix' → SameShape ix ix') ∧
    (∀ ix, m.build = .ok ix →
      ((∀ m' ix', Reorders m' m → m'.build = .ok ix' → SameValues ix ix') ↔ m.Settled)) := by
  have hvalid : ∀ n : Model, (∃ ix, n.build = .ok ix) ↔ n.Valid := fun n =>
    ⟨fun ⟨ix, hix⟩ => (build_eq_ok_iff.1 hix).1, fun hv => ⟨_, build_eq_ok_iff.2 ⟨hv, rfl⟩⟩⟩
  refine ⟨fun m' h => ?_, fun m' ix ix' h hix hix' => ?_, fun ix hix => ?_⟩
  · rw [hvalid, hvalid]
    exact ⟨h.valid, h.symm.valid⟩
  · obtain ⟨hv, rfl⟩ := build_eq_ok_iff.1 hix
    obtain ⟨-, rfl⟩ := build_eq_ok_iff.1 hix'
    exact h.sameShape hv
  · obtain ⟨hv, rfl⟩ := build_eq_ok_iff.1 hix
    constructor
    · intro h
      refine settled_of_forall_reorders hv fun m' hm' => ?_
      exact h m' _ hm' (build_eq_ok_iff.2 ⟨hm'.valid hv, rfl⟩)
    · intro hs m' ix' hm' hix'
      obtain ⟨-, rfl⟩ := build_eq_ok_iff.1 hix'
      exact (hm'.sameValues_iff hv).2 fun n _ => hm'.valueName_eq hv.declarable hs n

/-- A variable that stands for a base of the class described after it. -/
def early : Model where
  entities := [{ name := "v", kind := "variable", value := "ext.B" },
    { name := "c", kind := "class", bases := ["ext.B"] }]

/-- The same, with the class described first. -/
def late : Model where
  entities := [{ name := "c", kind := "class", bases := ["ext.B"] },
    { name := "v", kind := "variable", value := "ext.B" }]

theorem build_of_reorders_early : Reorders late early ∧ early.build = .ok early.index ∧
    late.build = .ok late.index ∧ SameShape early.index late.index ∧ ¬ early.Settled := by
  have hr : Reorders late early := ⟨List.Perm.swap _ _ _, rfl, rfl⟩
  have he : early.build = .ok early.index := by decide +kernel
  have hl : late.build = .ok late.index := by decide +kernel
  exact ⟨hr, he, hl, (build_of_reorders early).2.1 late _ _ hr he hl, by decide +kernel⟩

/-- The value of a variable can depend on the order: in one order it is not found. -/
theorem value_depends_on_order : ∃ m m' ix ix', Reorders m' m ∧ m.build = .ok ix ∧
    m'.build = .ok ix' ∧ ix.lookup "v" = some 0 ∧ ix'.lookup "v" = some 1 ∧
    (ix.entity 0).value = none ∧
    (ix'.entity 1).value.map ix'.nameOf = some (Name.parse "ext.B") ∧ ¬ SameValues ix ix' := by
  have hi : early.index.lookup "v" = some 0 := by decide +kernel
  have hi' : late.index.lookup "v" = some 1 := by decide +kernel
  have hnone : (early.index.entity 0).value = none := by decide +kernel
  have hsome : (late.index.entity 1).value.map late.index.nameOf = some (Name.parse "ext.B") := by
    decide +kernel
  refine ⟨early, late, early.index, late.index, ⟨List.Perm.swap _ _ _, rfl, rfl⟩,
    by decide +kernel, by decide +kernel, hi, hi', hnone, hsome, fun hs => ?_⟩
  have heq := hs "v" 0 1 hi hi'
  rw [hsome, hnone] at heq
  cases heq

end Model
end ApiDiagrams
