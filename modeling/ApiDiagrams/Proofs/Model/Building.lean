import ApiDiagrams.Proofs.Index.History
import ApiDiagrams.Proofs.Model.Containment
import ApiDiagrams.Proofs.Model.Linking

/-!
# Building a model

What `Model.build` does, pass by pass, and as a whole: a model is built exactly when it is valid,
and the index is then the table of its names, with the entities that its descriptions make.

* `Declarable`: when the first pass accepts the descriptions;
* `Model.names`, `Model.place`: the names of the index, and their numbers;
* `Model.linkedEntity`, `Model.entity`: the entity of a name before and after containment;
* `Model.profile`: the recorded calls;
* `Model.Valid`, `Model.index`, `build_eq_ok_iff`: the whole;
* `hasHistory_of_build`, `records_of_build`: a built index has a history, and holds what it says.
-/

namespace ApiDiagrams
namespace Model

/-! ### The first pass -/

/-- The names pass the check and are distinct, and the kinds are known. -/
structure Declarable (specs : List EntitySpec) : Prop where
  names : ∀ s ∈ specs, Validation.checkName s.name = .ok ()
  kinds : ∀ s ∈ specs, (EntityKind.parse? s.kind.lossy).isSome = true
  nodup : (declared specs).Nodup

theorem declare_eq_ok_iff {ix ix' : Index} {names : List String} {f : String → Entity}
    (h : ix.Tabulates names f) {s : EntitySpec} :
    declare ix s = .ok ix' ↔ (Validation.checkName s.name = .ok () ∧
      (EntityKind.parse? s.kind.lossy).isSome = true ∧ s.title ∉ names) ∧ ix.add s.stub = ix' := by
  unfold declare
  rw [bind_eq_ok_iff, ← h.lookup_eq_none_iff, ← Option.not_isSome_iff_eq_none]
  constructor
  · rintro ⟨⟨⟩, hname, hd⟩
    cases hk : EntityKind.parse? s.kind.lossy with
    | none =>
      rw [hk] at hd
      cases hd
    | some kind =>
      rw [hk] at hd
      dsimp only at hd
      split_ifs at hd with hl
      refine ⟨⟨hname, rfl, hl⟩, ?_⟩
      rw [← Except.ok.inj hd]
      simp only [EntitySpec.stub, hk, Option.getD_some]
      rfl
  · rintro ⟨⟨hname, hk, hl⟩, rfl⟩
    obtain ⟨kind, hk⟩ := Option.isSome_iff_exists.1 hk
    refine ⟨(), hname, ?_⟩
    have hl : ¬ (ix.lookup s.name.lossy).isSome = true := hl
    simp only [hk, if_neg hl, EntitySpec.stub, Option.getD_some]
    rfl

theorem stub_append {specs : List EntitySpec} {n : String} (h : n ∈ declared specs)
    (rest : List EntitySpec) : stub (specs ++ rest) n = stub specs n := by
  obtain ⟨s, hs, rfl⟩ := List.mem_map.1 h
  have hsome : (specs.find? fun t => t.title == s.title).isSome = true := by
    rw [List.find?_isSome]
    exact ⟨s, hs, by simp⟩
  obtain ⟨t, ht⟩ := Option.isSome_iff_exists.1 hsome
  rw [stub, stub, List.find?_append, ht]
  rfl

theorem stub_concat {specs : List EntitySpec} {s : EntitySpec} (h : s.title ∉ declared specs) :
    stub (specs ++ [s]) s.title = s.stub := by
  rw [stub, List.find?_append, find?_title_eq_none h]
  simp

/-- Distinctness, element by element: none is among those before it. -/
theorem nodup_map_iff_forall_split {α β : Type} {f : α → β} {l : List α} :
    (l.map f).Nodup ↔ ∀ done x rest, l = done ++ x :: rest → f x ∉ done.map f := by
  constructor
  · rintro h done x rest rfl hx
    rw [List.map_append, List.map_cons, List.nodup_append] at h
    exact h.2.2 _ hx _ List.mem_cons_self rfl
  · intro h
    induction l using List.reverseRecOn with
    | nil => exact List.nodup_nil
    | append_singleton l y ih =>
      have hl := ih fun done x rest hl => h done x (rest ++ [y]) (by simp [hl])
      rw [List.map_append, List.nodup_append]
      refine ⟨hl, List.nodup_singleton _, fun a ha b hb => ?_⟩
      rw [List.map_cons, List.map_nil, List.mem_singleton] at hb
      rw [hb]
      rintro rfl
      exact h l y [] rfl ha

theorem declarable_iff_forall_split {specs : List EntitySpec} :
    Declarable specs ↔ ∀ done s rest, specs = done ++ s :: rest →
      Validation.checkName s.name = .ok () ∧
        (EntityKind.parse? s.kind.lossy).isSome = true ∧ s.title ∉ declared done := by
  constructor
  · rintro h done s rest rfl
    exact ⟨h.names s (by simp), h.kinds s (by simp),
      nodup_map_iff_forall_split.1 h.nodup done s rest rfl⟩
  · intro h
    refine ⟨forall_split_iff.1 fun done s rest hl => (h done s rest hl).1,
      forall_split_iff.1 fun done s rest hl => (h done s rest hl).2.1,
      nodup_map_iff_forall_split.2 fun done s rest hl => (h done s rest hl).2.2⟩

theorem tabulates_empty (f : String → Entity) : Index.empty.Tabulates [] f where
  entities := rfl
  listed := rfl
  nodup := List.nodup_nil
  name n hn := by cases hn

/-- The first pass lists the described entities, without their relations. -/
theorem foldlM_declare (specs : List EntitySpec) :
    ((∃ ix, specs.foldlM declare Index.empty = .ok ix) ↔ Declarable specs) ∧
      ∀ ix, specs.foldlM declare Index.empty = .ok ix →
        ix.Tabulates (declared specs) (stub specs) ∧ ix.profile = none := by
  rw [declarable_iff_forall_split]
  refine foldlM_pass (P := fun done (ix : Index) =>
    ix.Tabulates (declared done) (stub done) ∧ ix.profile = none) ⟨tabulates_empty _, rfl⟩ ?_ ?_
  · rintro done s rest ix - ⟨h, hprofile⟩ hs
    refine ⟨_, (declare_eq_ok_iff h).2 ⟨hs, rfl⟩, ?_, hprofile⟩
    have h' := h.congr fun n hn => (stub_append hn [s]).symm
    rw [declared, List.map_append]
    exact h'.add hs.2.2 (stub_concat hs.2.2) rfl
  · rintro done s rest ix ix' - ⟨h, -⟩ hs
    exact ((declare_eq_ok_iff h).1 hs).1

/-! ### The index of a model -/

/-- Everything that the entities mention, in order. -/
def allMentions (m : Model) : List Mention := m.entities.flatMap EntitySpec.mentions

/-- The names of the index: those of the described entities, then those of other bases. -/
def names (m : Model) : List String := known (declared m.entities) m.allMentions

/-- The number of a name. -/
def place (m : Model) (n : String) : EntityId := m.names.idxOf n

/-- The entity of a name, without what it contains. -/
def linkedEntity (m : Model) : String → Entity := linked m.entities m.place m.allMentions

/-- The entity of a name. -/
def entity (m : Model) : String → Entity := contained m.linkedEntity m.place m.names

/-- Notes a call in a profile, starting one if need be. -/
def note (place : String → EntityId) (p : Option Profile) (c : CallSpec) : Option Profile :=
  some ((p.getD {}).addCall (place c.caller) (place c.callee))

/-- The recorded calls. -/
def profile (m : Model) : Option Profile :=
  m.calls.foldl (note m.place) (if m.profiled then some {} else none)

/-- The index before containment and calls. -/
def linkedIndex (m : Model) : Index where
  entities := (m.names.map m.linkedEntity).toArray
  listed := List.range m.names.length

/-- The index of a model. -/
def index (m : Model) : Index where
  entities := (m.names.map m.entity).toArray
  listed := List.range m.names.length
  profile := m.profile

/-- The model can be built. -/
structure Valid (m : Model) : Prop where
  declarable : Declarable m.entities
  linkable : ∀ s ∈ m.entities, s.Linkable
  noAliasCycle : checkAliases m.linkedIndex = .ok ()
  calls : ∀ c ∈ m.calls, c.caller ∈ m.names ∧ c.callee ∈ m.names

theorem places (m : Model) (h : (declared m.entities).Nodup) : Places m.place m.names := by
  intro i n hi
  obtain ⟨hlt, rfl⟩ := List.getElem?_eq_some_iff.1 hi
  exact List.Nodup.idxOf_getElem (nodup_known h _) i hlt

/-! ### The second pass -/

theorem linked_nil (specs : List EntitySpec) (place : String → EntityId) :
    linked specs place [] = stub specs := by
  funext n
  unfold linked stub
  cases specs.find? fun s => s.title == n <;> rfl

theorem bare_linked (specs : List EntitySpec) (place : String → EntityId) (es : List Mention) :
    Bare (linked specs place es) := by
  intro n
  unfold linked stub
  cases specs.find? fun s => s.title == n <;> exact ⟨rfl, rfl⟩

/-- A description that comes next is linked exactly when the names in it pass. -/
theorem Linked.link_next {m : Model} (hd : Declarable m.entities) {done rest : List EntitySpec}
    {s : EntitySpec} (hl : m.entities = done ++ s :: rest) {ix : Index}
    (h : Linked m.entities m.place (done.flatMap EntitySpec.mentions) ix) :
    ((∃ ix', Model.link ix s = .ok ix') ↔ s.Linkable) ∧ ∀ ix', Model.link ix s = .ok ix' →
      Linked m.entities m.place ((done ++ [s]).flatMap EntitySpec.mentions) ix' := by
  have hs : s ∈ m.entities := by simp [hl]
  have hall : m.allMentions = done.flatMap EntitySpec.mentions ++ s.mentions ++
      rest.flatMap EntitySpec.mentions := by
    simp [allMentions, hl]
  have hp := m.places hd.nodup
  rw [names, hall] at hp
  rw [List.flatMap_append, List.flatMap_singleton]
  exact h.link hs hp.of_known_append

/-- The second pass links all entities. -/
theorem foldlM_link (m : Model) (hd : Declarable m.entities) {ix : Index}
    (h : ix.Tabulates (declared m.entities) (stub m.entities)) (hprofile : ix.profile = none) :
    ((∃ ix', m.entities.foldlM link ix = .ok ix') ↔ ∀ s ∈ m.entities, s.Linkable) ∧
      ∀ ix', m.entities.foldlM link ix = .ok ix' →
        Linked m.entities m.place m.allMentions ix' := by
  have hstart : Linked m.entities m.place [] ix := by
    refine ⟨?_, fun e he => absurd he List.not_mem_nil, hprofile⟩
    rw [linked_nil]
    exact h
  rw [← forall_split_iff]
  refine foldlM_pass (P := fun done ix =>
    Linked m.entities m.place (done.flatMap EntitySpec.mentions) ix) hstart ?_ ?_
  · intro done s rest ix hl h hs
    obtain ⟨hok, hlinked⟩ := h.link_next hd hl
    obtain ⟨ix', hix'⟩ := hok.2 hs
    exact ⟨ix', hix', hlinked ix' hix'⟩
  · intro done s rest ix ix' hl h hix'
    exact (h.link_next hd hl).1.1 ⟨ix', hix'⟩

theorem Linked.eq_linkedIndex {m : Model} {ix : Index}
    (h : Linked m.entities m.place m.allMentions ix) : ix = m.linkedIndex := by
  rw [h.table.eq_mk, h.profile]
  rfl

/-! ### Calls -/

theorem recordCall_eq_ok_iff {ix ix' : Index} {c : CallSpec} :
    recordCall ix c = .ok ix' ↔ ∃ i j, ix.lookup c.caller = some i ∧ ix.lookup c.callee = some j ∧
      ix.addCall i j = ix' := by
  unfold recordCall
  cases ix.lookup c.caller <;> cases ix.lookup c.callee <;> simp

/-- Calls between entities of the index are recorded, all others are refused. -/
theorem foldlM_recordCall {ix : Index} {names : List String} {f : String → Entity}
    {place : String → EntityId} (h : ix.Tabulates names f) (hp : Places place names)
    (calls : List CallSpec) :
    ((∃ ix', calls.foldlM recordCall ix = .ok ix') ↔
        ∀ c ∈ calls, c.caller ∈ names ∧ c.callee ∈ names) ∧
      ∀ ix', calls.foldlM recordCall ix = .ok ix' →
        ix' = { ix with profile := calls.foldl (note place) ix.profile } := by
  -- the profile does not matter for looking up
  have hlookup : ∀ p n, Index.lookup { ix with profile := p } n = ix.lookup n := fun _ _ => rfl
  have hmem : ∀ n i, ix.lookup n = some i ↔ n ∈ names ∧ place n = i := by
    intro n i
    rw [h.lookup_eq_some_iff]
    constructor
    · exact fun hi => ⟨List.mem_of_getElem? hi, hp i n hi⟩
    · rintro ⟨hn, rfl⟩
      exact hp.getElem? hn
  rw [← forall_split_iff]
  refine foldlM_pass (P := fun done ix' =>
    ix' = { ix with profile := done.foldl (note place) ix.profile }) rfl ?_ ?_
  · rintro done c rest - - rfl hc
    refine ⟨_, recordCall_eq_ok_iff.2 ⟨place c.caller, place c.callee, ?_, ?_, rfl⟩, ?_⟩
    · rw [hlookup, hmem]
      exact ⟨hc.1, rfl⟩
    · rw [hlookup, hmem]
      exact ⟨hc.2, rfl⟩
    · rw [List.foldl_append]
      rfl
  · rintro done c rest - ix' - rfl hc
    obtain ⟨i, j, hi, hj, -⟩ := recordCall_eq_ok_iff.1 hc
    rw [hlookup, hmem] at hi hj
    exact ⟨hi.1, hj.1⟩

/-! ### The whole -/

theorem tabulates_linkedIndex {m : Model} (h : Declarable m.entities) :
    m.linkedIndex.Tabulates m.names m.linkedEntity where
  entities := rfl
  listed := rfl
  nodup := nodup_known h.nodup _
  name n _ := name_stub m.entities n

theorem foldl_contain_linkedIndex {m : Model} (h : Declarable m.entities) :
    m.linkedIndex.listed.foldl contain m.linkedIndex = { m.index with profile := none } := by
  have ht := tabulates_foldl_contain (tabulates_linkedIndex h) (bare_linked _ _ _)
    (m.places h.nodup)
  rw [ht.eq_mk, profile_foldl_contain]
  rfl

/-- The index with the profile that is there before any call is recorded. -/
def unprofiled (m : Model) : Index :=
  { m.index with profile := if m.profiled then some {} else none }

/-- With whatever profile, the index is the table of the names of the model. -/
theorem tabulates_profiled {m : Model} (h : Declarable m.entities) (p : Option Profile) :
    Index.Tabulates { m.index with profile := p } m.names m.entity where
  entities := rfl
  listed := rfl
  nodup := nodup_known h.nodup _
  name n _ := name_stub m.entities n

/-- After the two passes only the check for cycles and the calls are left. -/
theorem build_eq (m : Model) (hd : Declarable m.entities) (hl : ∀ s ∈ m.entities, s.Linkable) :
    m.build = (checkAliases m.linkedIndex >>= fun _ => m.calls.foldlM recordCall m.unprofiled) := by
  obtain ⟨ix₁, hix₁⟩ := (foldlM_declare m.entities).1.2 hd
  obtain ⟨ht, hprofile⟩ := (foldlM_declare m.entities).2 ix₁ hix₁
  obtain ⟨hlink, hlinked⟩ := foldlM_link m hd ht hprofile
  obtain ⟨ix₂, hix₂⟩ := hlink.2 hl
  obtain rfl := (hlinked ix₂ hix₂).eq_linkedIndex
  have hunprofiled : (if m.profiled then
      (m.linkedIndex.listed.foldl contain m.linkedIndex).enableProfile
      else m.linkedIndex.listed.foldl contain m.linkedIndex) = m.unprofiled := by
    rw [foldl_contain_linkedIndex hd, unprofiled]
    cases m.profiled <;> rfl
  -- the passes one after the other, each with what it leaves behind
  unfold build
  rw [hix₁]
  change (m.entities.foldlM link ix₁ >>= _) = _
  rw [hix₂]
  change (checkAliases m.linkedIndex >>= fun _ => m.calls.foldlM recordCall _) = _
  rw [hunprofiled]

/-- A model that is built has passed both passes. -/
theorem declarable_of_build {m : Model} {ix : Index} (h : m.build = .ok ix) :
    Declarable m.entities ∧ ∀ s ∈ m.entities, s.Linkable := by
  unfold build at h
  obtain ⟨ix₁, hix₁, h⟩ := bind_eq_ok_iff.1 h
  obtain ⟨ix₂, hix₂, -⟩ := bind_eq_ok_iff.1 h
  have hd := (foldlM_declare m.entities).1.1 ⟨ix₁, hix₁⟩
  obtain ⟨ht, hprofile⟩ := (foldlM_declare m.entities).2 ix₁ hix₁
  exact ⟨hd, (foldlM_link m hd ht hprofile).1.1 ⟨ix₂, hix₂⟩⟩

/-- A model is built exactly when it is valid, and what is built is its index. -/
theorem build_eq_ok_iff {m : Model} {ix : Index} : m.build = .ok ix ↔ m.Valid ∧ ix = m.index := by
  constructor
  · intro h
    obtain ⟨hd, hl⟩ := declarable_of_build h
    rw [build_eq m hd hl, bind_eq_ok_iff] at h
    obtain ⟨⟨⟩, haliases, hcalls⟩ := h
    obtain ⟨hcall, hindex⟩ :=
      foldlM_recordCall (tabulates_profiled hd _) (m.places hd.nodup) m.calls
    exact ⟨⟨hd, hl, haliases, hcall.1 ⟨ix, hcalls⟩⟩, hindex ix hcalls⟩
  · rintro ⟨⟨hd, hl, haliases, hcalls⟩, rfl⟩
    obtain ⟨hcall, hindex⟩ :=
      foldlM_recordCall (tabulates_profiled hd _) (m.places hd.nodup) m.calls
    obtain ⟨ix, hix⟩ := hcall.2 hcalls
    rw [build_eq m hd hl, haliases]
    exact hix.trans (congrArg _ (hindex ix hix))

/-- The index of a model that can be built is the table of its names. -/
theorem tabulates_index {m : Model} (h : m.Valid) :
    m.index.Tabulates m.names m.entity := tabulates_profiled h.declarable m.profile

/-! ### Histories of built indexes -/

section History

variable {ix ix' : Index}

/-- The index came about by additions, calls and marks. -/
def HasHistory (ix : Index) : Prop := ∃ past, Index.History past ix

theorem HasHistory.change (h : HasHistory ix) (i : EntityId) {f : Entity → Entity}
    (hf : ∀ e, (f e).name = e.name) : HasHistory (ix.modify i f) :=
  h.imp fun _ hp => hp.change i hf

theorem hasHistory_declare {s : EntitySpec} (h : HasHistory ix) (hd : declare ix s = .ok ix') :
    HasHistory ix' := by
  obtain ⟨past, h⟩ := h
  obtain ⟨⟨⟩, -, hd⟩ := bind_eq_ok_iff.1 hd
  cases hkind : EntityKind.parse? s.kind.lossy with
  | none =>
    rw [hkind] at hd
    cases hd
  | some kind =>
    rw [hkind] at hd
    dsimp only at hd
    split_ifs at hd
    cases hd
    exact ⟨_, h.add _⟩

theorem hasHistory_linkBase {owner : EntityId} {name : String} {base : Text.Raw}
    (h : HasHistory ix) (hl : linkBase owner name ix base = .ok ix') : HasHistory ix' := by
  obtain ⟨⟨⟩, -, hl⟩ := bind_eq_ok_iff.1 hl
  dsimp only at hl
  cases hlookup : ix.lookup base.lossy with
  | some b =>
    rw [hlookup] at hl
    cases hl
    refine HasHistory.change (HasHistory.change h _ ?_) _ ?_
    · exact fun _ => rfl
    · exact fun _ => rfl
  | none =>
    rw [hlookup] at hl
    cases hl
    obtain ⟨past, h⟩ := h
    refine HasHistory.change (HasHistory.change ⟨_, h.add _⟩ _ ?_) _ ?_
    · exact fun _ => rfl
    · exact fun _ => rfl

theorem hasHistory_linkImport {owner : EntityId} {name : String} {imported : Text.Raw}
    (h : HasHistory ix) (hl : linkImport owner name ix imported = .ok ix') : HasHistory ix' := by
  obtain ⟨⟨⟩, -, hl⟩ := bind_eq_ok_iff.1 hl
  cases hl
  exact h.change owner fun _ => rfl

theorem hasHistory_link {s : EntitySpec} (h : HasHistory ix) (hl : link ix s = .ok ix') :
    HasHistory ix' := by
  unfold link at hl
  dsimp only at hl
  cases hlookup : ix.lookup s.name.lossy with
  | none =>
    rw [hlookup] at hl
    cases hl
    exact h
  | some owner =>
    rw [hlookup] at hl
    obtain ⟨ix₁, hbases, hl⟩ := bind_eq_ok_iff.1 hl
    obtain ⟨ix₂, himports, hl⟩ := bind_eq_ok_iff.1 hl
    have h₁ := foldlM_keeps (fun _ _ _ => hasHistory_linkBase) h hbases
    have h₂ := foldlM_keeps (fun _ _ _ => hasHistory_linkImport) h₁ himports
    split_ifs at hl
    · cases hl
      exact h₂
    · cases hl
      exact h₂.change owner fun _ => rfl

theorem hasHistory_contain (h : HasHistory ix) (i : EntityId) : HasHistory (contain ix i) := by
  unfold contain
  split
  · exact h
  · split_ifs
    · exact h
    · exact h.change _ fun _ => rfl
    · exact h.change _ fun _ => rfl

theorem hasHistory_recordCall {call : CallSpec} (h : HasHistory ix)
    (hc : recordCall ix call = .ok ix') : HasHistory ix' := by
  unfold recordCall at hc
  split at hc
  · cases hc
    exact h.imp' _ fun _ hp => hp.call _ _
  · cases hc

/-- The passes do nothing to an index but add, record calls and mark it. -/
theorem hasHistory_of_build {m : Model} (h : m.build = .ok ix) : HasHistory ix := by
  obtain ⟨ix₁, hdeclare, h⟩ := bind_eq_ok_iff.1 h
  obtain ⟨ix₂, hlink, h⟩ := bind_eq_ok_iff.1 h
  obtain ⟨⟨⟩, -, hcalls⟩ := bind_eq_ok_iff.1 h
  have h₁ := foldlM_keeps (fun _ _ _ => hasHistory_declare) ⟨_, .start⟩ hdeclare
  have h₂ := foldlM_keeps (fun _ _ _ => hasHistory_link) h₁ hlink
  have h₃ : HasHistory (ix₂.listed.foldl contain ix₂) :=
    List.foldlRecOn _ _ h₂ fun _ h i _ => hasHistory_contain h i
  refine foldlM_keeps (fun _ _ _ => hasHistory_recordCall) ?_ hcalls
  split_ifs
  · exact h₃.imp' _ fun _ hp => hp.profile
  · exact h₃

/-- Every built index holds what some additions, calls and marks say. -/
theorem records_of_build {m : Model} (h : m.build = .ok ix) : ∃ past, Index.Records past ix :=
  (hasHistory_of_build h).imp fun _ hp => hp.records

end History
end Model
end ApiDiagrams
