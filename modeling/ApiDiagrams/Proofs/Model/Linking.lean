import ApiDiagrams.Proofs.Index.Table
import ApiDiagrams.Proofs.Model.Mentions
import ApiDiagrams.Proofs.Passes

/-!
# Linking the entities of a model

The index after some mentions is the table of the names known by then, with the entities that the
mentions make. Each step of the second pass keeps it so.

* `Places`: the numbering of names that an index of these names has;
* `Linked`: the index after some mentions;
* `Linked.linkBase`, `Linked.linkImport`, `Linked.mentionValue`: one mention;
* `Linked.link`: one description, and `EntitySpec.Linkable` says when it is accepted.
-/

namespace ApiDiagrams
namespace Model

/-- Every name of the list has its place. -/
def Places (place : String → EntityId) (names : List String) : Prop :=
  ∀ i n, names[i]? = some n → place n = i

theorem Places.of_prefix {place : String → EntityId} {names names' : List String}
    (h : Places place names') (hp : names <+: names') : Places place names := by
  intro i n hi
  obtain ⟨rest, rfl⟩ := hp
  refine h i n ?_
  rw [List.getElem?_append_left (List.getElem?_eq_some_iff.1 hi).1, hi]

theorem Places.of_known_append {place : String → EntityId} {names : List String}
    {es es' : List Mention} (h : Places place (known names (es ++ es'))) :
    Places place (known names es) := by
  rw [known_append] at h
  exact h.of_prefix (prefix_known _ _)

theorem Places.getElem? {place : String → EntityId} {names : List String} (h : Places place names)
    {n : String} (hn : n ∈ names) : names[place n]? = some n := by
  obtain ⟨i, hi⟩ := List.mem_iff_getElem?.1 hn
  rw [h i n hi, hi]

/-- The index after some mentions. -/
structure Linked (specs : List EntitySpec) (place : String → EntityId) (es : List Mention)
    (ix : Index) : Prop where
  table : ix.Tabulates (known (declared specs) es) (linked specs place es)
  owners : ∀ e ∈ es, e.owner ∈ declared specs
  profile : ix.profile = none

section Steps

variable {specs : List EntitySpec} {place : String → EntityId} {es : List Mention} {ix : Index}
  {o : String}

theorem checkReference_of_ok {name : Text.Raw} (h : Validation.checkName name = .ok ())
    (owner relation : String) : checkReference owner relation name = .ok () := by
  unfold checkReference
  rw [h]

theorem Linked.owners_concat (h : Linked specs place es ix) {e : Mention}
    (he : e.owner ∈ declared specs) : ∀ d ∈ es ++ [e], d.owner ∈ declared specs := by
  intro d hd
  rcases List.mem_append.1 hd with hd | hd
  · exact h.owners d hd
  · rw [List.mem_singleton.1 hd]
    exact he

theorem mem_known_of_declared (ho : o ∈ declared specs) : o ∈ known (declared specs) es :=
  mem_known_iff.2 (Or.inl ho)

theorem Linked.linkImport (h : Linked specs place es ix) (ho : o ∈ declared specs)
    (hp : Places place (known (declared specs) es)) {name : Text.Raw}
    (hname : Validation.checkName name = .ok ()) :
    ∃ ix', linkImport (place o) o ix name = .ok ix' ∧
      Linked specs place (es ++ [.imported o name.lossy]) ix' := by
  unfold Model.linkImport
  rw [checkReference_of_ok hname]
  refine ⟨_, rfl, ?_, h.owners_concat ho, h.profile⟩
  rw [known_concat]
  refine (h.table.modify (hp.getElem? (mem_known_of_declared ho)) rfl).congr fun n _ => ?_
  by_cases hn : n = o
  · simp [linked, valueAfter_concat, hn]
  · simp [linked, valueAfter_concat, hn, Ne.symm hn]

/-- The value of a variable is looked up among the names that are known by then. -/
theorem Linked.mentionValue (h : Linked specs place es ix) (ho : o ∈ declared specs)
    (hp : Places place (known (declared specs) es)) (t : String) :
    Linked specs place (es ++ [.value o t])
      (ix.modify (place o) fun e => { e with value := ix.lookup t }) := by
  have hlookup : ix.lookup t =
      (if t ∈ known (declared specs) es then some t else none).map place := by
    split_ifs with ht
    · rw [Option.map_some, h.table.lookup_eq_some_iff]
      exact hp.getElem? ht
    · rw [Option.map_none, h.table.lookup_eq_none_iff]
      exact ht
  refine ⟨?_, h.owners_concat ho, h.profile⟩
  rw [known_concat]
  refine (h.table.modify (hp.getElem? (mem_known_of_declared ho)) rfl).congr fun n _ => ?_
  by_cases hn : n = o
  · simp [linked, valueAfter_concat, hn, hlookup]
  · simp [linked, valueAfter_concat, hn, Ne.symm hn]

/-- A base that is mentioned is in the index, if need be as a class from outside. -/
theorem Linked.admit (h : Linked specs place es ix) {b : String}
    (hp : Places place (known (declared specs) (es ++ [.base o b]))) :
    ∃ ix', (ix.lookup b = some (place b) ∧ ix' = ix ∨
        ix.lookup b = none ∧ ix.nextId = place b ∧ ix' = ix.add (outsider b)) ∧
      ix'.Tabulates (known (declared specs) (es ++ [.base o b])) (linked specs place es) ∧
      ix'.profile = none := by
  rw [known_concat] at hp ⊢
  by_cases hb : b ∈ known (declared specs) es
  · simp only [learn, if_pos hb] at hp ⊢
    have hlookup := h.table.lookup_eq_some_iff.2 (hp.getElem? hb)
    exact ⟨ix, Or.inl ⟨hlookup, rfl⟩, h.table, h.profile⟩
  · simp only [learn, if_neg hb] at hp ⊢
    -- it takes the next number, which is the place that it has in the end
    have hplace : place b = ix.nextId := by
      refine hp _ _ ?_
      rw [h.table.nextId_eq]
      simp
    refine ⟨ix.add (outsider b), Or.inr ⟨h.table.lookup_eq_none_iff.2 hb, hplace.symm, rfl⟩, ?_,
      h.profile⟩
    exact h.table.add hb (linked_of_not_mem h.owners hb) rfl

theorem Linked.linkBase (h : Linked specs place es ix) (ho : o ∈ declared specs) {b : Text.Raw}
    (hp : Places place (known (declared specs) (es ++ [.base o b.lossy])))
    (hb : Validation.checkName b = .ok ()) :
    ∃ ix', linkBase (place o) o ix b = .ok ix' ∧
      Linked specs place (es ++ [.base o b.lossy]) ix' := by
  obtain ⟨ix₁, hadmit, ht, hprofile⟩ := h.admit hp
  have hlink : Model.linkBase (place o) o ix b = .ok
      ((ix₁.modify (place o) fun e => { e with bases := e.bases ++ [place b.lossy] }).modify
        (place b.lossy) fun e => { e with subclasses := e.subclasses ++ [place o] }) := by
    unfold Model.linkBase
    rw [checkReference_of_ok hb]
    rcases hadmit with ⟨hlookup, rfl⟩ | ⟨hlookup, hnext, rfl⟩
    · simp only [hlookup]
      rfl
    · simp only [hlookup, hnext]
      rfl
  have hbase : b.lossy ∈ known (declared specs) (es ++ [.base o b.lossy]) :=
    mem_known_iff.2 (Or.inr ⟨o, by simp⟩)
  have ht₁ := ht.modify (hp.getElem? (mem_known_of_declared ho))
    (g := fun e => { e with bases := e.bases ++ [place b.lossy] }) rfl
  have ht₂ := ht₁.modify (hp.getElem? hbase)
    (g := fun e => { e with subclasses := e.subclasses ++ [place o] }) rfl
  refine ⟨_, hlink, ht₂.congr fun n _ => ?_, h.owners_concat ho, hprofile⟩
  -- an entity may be its own base, and is then changed twice
  by_cases hn : n = o <;> by_cases hn' : n = b.lossy
  · subst hn
    simp [linked, valueAfter_concat, ← hn']
  · subst hn
    simp [linked, valueAfter_concat, hn', Ne.symm hn']
  · have hob : o ≠ b.lossy := fun hob => hn (hn'.trans hob.symm)
    simp [linked, valueAfter_concat, hn', hob, Ne.symm hob]
  · simp [linked, valueAfter_concat, hn, hn', Ne.symm hn, Ne.symm hn']

theorem ok_of_checkReference {owner relation : String} {name : Text.Raw}
    (h : checkReference owner relation name = .ok ()) : Validation.checkName name = .ok () := by
  unfold checkReference at h
  split at h
  · assumption
  · cases h

theorem ok_of_linkBase {ix' : Index} {i : EntityId} {b : Text.Raw}
    (h : Model.linkBase i o ix b = .ok ix') : Validation.checkName b = .ok () := by
  obtain ⟨⟨⟩, hb, -⟩ := bind_eq_ok_iff.1 h
  exact ok_of_checkReference hb

theorem ok_of_linkImport {ix' : Index} {i : EntityId} {name : Text.Raw}
    (h : Model.linkImport i o ix name = .ok ix') : Validation.checkName name = .ok () := by
  obtain ⟨⟨⟩, hb, -⟩ := bind_eq_ok_iff.1 h
  exact ok_of_checkReference hb

theorem Linked.foldlM_linkBase (h : Linked specs place es ix) (ho : o ∈ declared specs)
    {bs : List Text.Raw}
    (hp : Places place (known (declared specs) (es ++ bs.map fun b => .base o b.lossy))) :
    ((∃ ix', bs.foldlM (Model.linkBase (place o) o) ix = .ok ix') ↔
        ∀ b ∈ bs, Validation.checkName b = .ok ()) ∧
      ∀ ix', bs.foldlM (Model.linkBase (place o) o) ix = .ok ix' →
        Linked specs place (es ++ bs.map fun b => .base o b.lossy) ix' := by
  rw [← forall_split_iff]
  refine foldlM_pass (P := fun (done : List Text.Raw) ix => Linked specs place
    (es ++ done.map fun b => .base o b.lossy) ix) (by simpa using h) ?_ ?_
  · rintro done b rest ix₁ rfl h₁ hb
    rw [List.map_append, List.map_cons, List.append_cons, ← List.append_assoc,
      ← List.append_assoc] at hp
    obtain ⟨ix₂, heq, h₂⟩ := h₁.linkBase ho hp.of_known_append hb
    exact ⟨ix₂, heq, by simpa using h₂⟩
  · intro done b rest ix₁ ix₂ _ _ heq
    exact ok_of_linkBase heq

theorem Linked.foldlM_linkImport (h : Linked specs place es ix) (ho : o ∈ declared specs)
    {names : List Text.Raw}
    (hp : Places place (known (declared specs) (es ++ names.map fun i => .imported o i.lossy))) :
    ((∃ ix', names.foldlM (Model.linkImport (place o) o) ix = .ok ix') ↔
        ∀ i ∈ names, Validation.checkName i = .ok ()) ∧
      ∀ ix', names.foldlM (Model.linkImport (place o) o) ix = .ok ix' →
        Linked specs place (es ++ names.map fun i => .imported o i.lossy) ix' := by
  rw [← forall_split_iff]
  refine foldlM_pass (P := fun (done : List Text.Raw) ix => Linked specs place
    (es ++ done.map fun i => .imported o i.lossy) ix) (by simpa using h) ?_ ?_
  · rintro done i rest ix₁ rfl h₁ hi
    rw [List.map_append, ← List.append_assoc] at hp
    obtain ⟨ix₂, heq, h₂⟩ := h₁.linkImport ho hp.of_known_append hi
    exact ⟨ix₂, heq, by simpa using h₂⟩
  · intro done i rest ix₁ ix₂ _ _ heq
    exact ok_of_linkImport heq

end Steps

end Model

/-- The names that the entity mentions as bases and imports pass the check of names. -/
structure EntitySpec.Linkable (s : EntitySpec) : Prop where
  bases : ∀ b ∈ s.bases, Validation.checkName b = .ok ()
  imports : ∀ i ∈ s.imports, Validation.checkName i = .ok ()

namespace Model

section Steps

variable {specs : List EntitySpec} {place : String → EntityId} {es : List Mention} {ix : Index}

/-- Gives a variable its value, if the description names one. -/
def setValue (s : EntitySpec) (owner : EntityId) (ix : Index) : Index :=
  if s.value = "" then ix
  else ix.modify owner fun e => { e with value := ix.lookup s.value }

theorem link_eq_ok_iff {s : EntitySpec} {owner : EntityId} {ix' : Index}
    (h : ix.lookup s.title = some owner) :
    Model.link ix s = .ok ix' ↔
      ∃ ix₁, s.bases.foldlM (Model.linkBase owner s.title) ix = .ok ix₁ ∧
      ∃ ix₂, s.imports.foldlM (Model.linkImport owner s.title) ix₁ = .ok ix₂ ∧
        setValue s owner ix₂ = ix' := by
  unfold EntitySpec.title at *
  unfold Model.link setValue
  simp only [h, bind_eq_ok_iff]
  refine exists_congr fun ix₁ => and_congr_right fun _ => exists_congr fun ix₂ =>
    and_congr_right fun _ => ?_
  split_ifs with hv
  · exact ⟨Except.ok.inj, congrArg _⟩
  · exact ⟨Except.ok.inj, congrArg _⟩

theorem Linked.setValue (h : Linked specs place es ix) {s : EntitySpec} (hs : s ∈ specs)
    (hp : Places place (known (declared specs) es)) :
    Linked specs place (es ++ if s.value = "" then [] else [.value s.title s.value])
      (setValue s (place s.title) ix) := by
  unfold Model.setValue
  split_ifs
  · rwa [List.append_nil]
  · exact h.mentionValue (List.mem_map_of_mem hs) hp s.value

/-- One description is linked exactly when the names in it pass, and everything that it mentions
counts from then on. -/
theorem Linked.link (h : Linked specs place es ix) {s : EntitySpec} (hs : s ∈ specs)
    (hp : Places place (known (declared specs) (es ++ s.mentions))) :
    ((∃ ix', Model.link ix s = .ok ix') ↔ s.Linkable) ∧
      ∀ ix', Model.link ix s = .ok ix' → Linked specs place (es ++ s.mentions) ix' := by
  have ho : s.title ∈ declared specs := List.mem_map_of_mem hs
  rw [EntitySpec.mentions, ← List.append_assoc, ← List.append_assoc] at hp ⊢
  have hp₂ := hp.of_known_append
  have hp₁ := hp₂.of_known_append
  have hp₀ := hp₁.of_known_append
  have hlookup : ix.lookup s.title = some (place s.title) :=
    h.table.lookup_eq_some_iff.2 (hp₀.getElem? (mem_known_of_declared ho))
  simp only [link_eq_ok_iff hlookup]
  obtain ⟨hbases, hbases'⟩ := h.foldlM_linkBase ho hp₁
  refine ⟨⟨?_, fun hl => ?_⟩, ?_⟩
  · rintro ⟨-, ix₁, hix₁, ix₂, hix₂, -⟩
    have himports := ((hbases' ix₁ hix₁).foldlM_linkImport ho hp₂).1
    exact ⟨hbases.1 ⟨ix₁, hix₁⟩, himports.1 ⟨ix₂, hix₂⟩⟩
  · obtain ⟨ix₁, hix₁⟩ := hbases.2 hl.bases
    have himports := ((hbases' ix₁ hix₁).foldlM_linkImport ho hp₂).1
    obtain ⟨ix₂, hix₂⟩ := himports.2 hl.imports
    exact ⟨_, ix₁, hix₁, ix₂, hix₂, rfl⟩
  · rintro ix' ⟨ix₁, hix₁, ix₂, hix₂, rfl⟩
    have himports' := ((hbases' ix₁ hix₁).foldlM_linkImport ho hp₂).2
    exact (himports' ix₂ hix₂).setValue hs hp₂

end Steps

end Model
end ApiDiagrams
