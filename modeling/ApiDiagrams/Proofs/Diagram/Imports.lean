import ApiDiagrams.Proofs.Diagram.Nesting
import ApiDiagrams.Proofs.Diagram.Picture
import ApiDiagrams.Proofs.Index.Chains

/-!
# What import graphs show

An import graph shows which modules import from which. What is imported may be anything inside a
module, and it may be named by way of a variable: an imported name leads to the module of its
longest beginning that names one.

* `NamesModule`: a name is that of a module, or of a variable that stands for one;
* `LeadsToModule`: the module that an imported name leads to;
* `longestModule_eq_some_iff`: the search from the whole name downwards finds that module;
* `Builder.importGraph_displays`: what an import graph shows.
-/

namespace ApiDiagrams
namespace Diagram

/-- An entity with these identifiers is the module, or a variable whose values lead to it. -/
def NamesModule (ix : Index) (parts : List String) (s : EntityId) : Prop :=
  ∃ d ∈ ix.listed, (ix.nameOf d).parts = parts ∧ ix.Follows d s ∧ (ix.entity s).kind = .module

/-- The longest nonempty beginning of the name that names a module names this one. -/
def LeadsToModule (ix : Index) (n : Name) (s : EntityId) : Prop :=
  ∃ p, p ≠ [] ∧ p <+: n.parts ∧ NamesModule ix p s ∧
    ∀ q, q <+: n.parts → p.length < q.length → ∀ s', ¬ NamesModule ix q s'

/-! ### The longest beginning -/

/-- Trying the nonempty beginnings of a list, the longest first. -/
theorem findSome?_take_eq_some_iff {α β : Type} {f : List α → Option β} {l : List α} {y : β} :
    ((List.range l.length).reverse.map fun k => l.take (k + 1)).findSome? f = some y ↔
      ∃ p, p ≠ [] ∧ p <+: l ∧ f p = some y ∧
        ∀ q, q <+: l → p.length < q.length → f q = none := by
  induction l using List.reverseRecOn with
  | nil => simp
  | append_singleton l x ih =>
    have hrest : ((List.range l.length).reverse.map fun k => (l ++ [x]).take (k + 1)) =
        (List.range l.length).reverse.map fun k => l.take (k + 1) := by
      refine List.map_congr_left fun k hk => List.take_append_of_le_length ?_
      rwa [List.mem_reverse, List.mem_range] at hk
    have hwhole : (l ++ [x]).take (l.length + 1) = l ++ [x] :=
      List.take_of_length_le (by simp)
    rw [List.length_append, List.length_singleton, List.range_succ, List.reverse_append,
      List.reverse_singleton, List.singleton_append, List.map_cons, hrest, hwhole,
      List.findSome?_cons]
    cases hf : f (l ++ [x]) with
    | some z =>
      constructor
      · rintro ⟨⟩
        exact ⟨l ++ [x], by simp, List.prefix_rfl, hf, fun q hq hlt =>
          absurd hq.length_le (not_le.2 hlt)⟩
      · rintro ⟨p, -, hp, hy, hlongest⟩
        rcases List.prefix_concat_iff.1 hp with rfl | hp
        · exact hf.symm.trans hy
        · have hlt : p.length < (l ++ [x]).length := by
            rw [List.length_append, List.length_singleton]
            exact Nat.lt_succ_of_le hp.length_le
          rw [hlongest _ List.prefix_rfl hlt] at hf
          cases hf
    | none =>
      dsimp only
      rw [ih]
      constructor
      · rintro ⟨p, hne, hp, hy, hlongest⟩
        refine ⟨p, hne, hp.trans (List.prefix_append l [x]), hy, fun q hq hlt => ?_⟩
        rcases List.prefix_concat_iff.1 hq with rfl | hq
        · exact hf
        · exact hlongest q hq hlt
      · rintro ⟨p, hne, hp, hy, hlongest⟩
        rcases List.prefix_concat_iff.1 hp with rfl | hp
        · rw [hf] at hy
          cases hy
        · exact ⟨p, hne, hp, hy, fun q hq => hlongest q (hq.trans (List.prefix_append l [x]))⟩

/-! ### Imported names -/

section Imported

variable {m : Model} {s t : EntityId} {parts : List String} {n : Name}

/-- Dotted texts tell names without dots in their identifiers apart. -/
theorem parts_eq_of_text_eq (h : m.Valid) {d : EntityId} (hd : d ∈ m.index.listed)
    (hdots : ∀ p ∈ parts, '.' ∉ p.toList) (htext : (m.index.nameOf d).text = Name.text ⟨parts⟩) :
    (m.index.nameOf d).parts = parts := by
  have hne : Name.text ⟨parts⟩ ≠ "" := htext ▸ ((Model.consistent_index h).dotted d hd).ne_empty
  obtain ⟨x, hx, rfl⟩ := (Model.mem_listed_iff_place h).1 hd
  rw [Model.nameOf_place h hx] at htext ⊢
  rw [Name.text_parse] at htext
  rw [htext, Name.parse_text hne hdots]

/-- A chain of variables that ends in a module is followed to its end. -/
theorem resolve_eq_iff_follows {d : EntityId} (hs : (m.index.entity s).kind = .module) :
    m.index.resolve d = s ↔ m.index.Follows d s := by
  apply Index.resolve_eq_iff
  apply Index.aliasOf_eq_none_of_kind
  rw [hs]
  exact EntityKind.noConfusion

theorem moduleAt_eq_some_iff (h : m.Valid) (hdots : ∀ p ∈ parts, '.' ∉ p.toList) :
    m.index.moduleAt parts = some s ↔ NamesModule m.index parts s := by
  unfold Index.moduleAt Index.get NamesModule
  cases hlookup : m.index.lookup (Name.text ⟨parts⟩) with
  | some d =>
    obtain ⟨hd, htext⟩ := ((Model.consistent_index h).lookup _ _).1 hlookup
    have hparts := parts_eq_of_text_eq h hd hdots htext
    dsimp only
    rw [Option.ite_none_right_eq_some, Option.some.injEq]
    constructor
    · rintro ⟨hkind, rfl⟩
      exact ⟨d, hd, hparts, Index.follows_resolve _ _, hkind⟩
    · rintro ⟨d', hd', hparts', hfollows, hkind⟩
      obtain rfl := Model.nameOf_injOn h hd hd' (hparts.trans hparts'.symm)
      obtain rfl := (resolve_eq_iff_follows hkind).2 hfollows
      exact ⟨hkind, rfl⟩
  | none =>
    simp only [reduceCtorEq, false_iff]
    rintro ⟨d, hd, rfl, -⟩
    rw [((Model.consistent_index h).lookup _ d).2 ⟨hd, rfl⟩] at hlookup
    cases hlookup

/-- The search for the module of an imported name finds the one that the name leads to. -/
theorem longestModule_eq_some_iff (h : m.Valid) (hdots : ∀ p ∈ n.parts, '.' ∉ p.toList) :
    m.index.longestModule n = some s ↔ LeadsToModule m.index n s := by
  have hat : ∀ q, q <+: n.parts → ∀ s', m.index.moduleAt q = some s' ↔ NamesModule m.index q s' :=
    fun q hq s' => moduleAt_eq_some_iff h fun p hp => hdots p (hq.subset hp)
  unfold Index.longestModule LeadsToModule
  rw [findSome?_take_eq_some_iff]
  refine exists_congr fun p => and_congr_right fun _ => and_congr_right fun hp =>
    and_congr (hat p hp s) (forall₃_congr fun q hq _ => ?_)
  rw [Option.eq_none_iff_forall_ne_some]
  exact forall_congr' fun s' => not_congr (hat q hq s')

/-- Imported names are read from text. -/
theorem exists_parse_of_mem_imports (h : m.Valid) (ht : t ∈ m.index.listed)
    (hn : n ∈ (m.index.entity t).imports) : ∃ text, Name.parse text = n := by
  obtain ⟨x, hx, rfl⟩ := (Model.mem_listed_iff_place h).1 ht
  rw [Model.entity_place h hx] at hn
  obtain ⟨text, -, htext⟩ := List.mem_map.1 hn
  exact ⟨text, htext⟩

end Imported

/-! ### The graph -/

namespace Builder

variable {m : Model} {b : Builder} {targets : List EntityId} {s t : EntityId}

theorem mem_importPairs_iff (h : m.Valid) (hindex : b.index = m.index)
    (ht : ∀ t ∈ targets, t ∈ m.index.listed) : (s, t) ∈ b.importPairs targets ↔
      t ∈ targets ∧ ∃ n ∈ (m.index.entity t).imports, LeadsToModule m.index n s := by
  unfold importPairs
  rw [hindex]
  simp only [List.mem_flatMap, List.mem_filterMap, Option.map_eq_some_iff, Prod.mk.injEq]
  have hleads : ∀ t ∈ targets, ∀ n ∈ (m.index.entity t).imports,
      (m.index.longestModule n = some s ↔ LeadsToModule m.index n s) := by
    intro t htarget n hn
    obtain ⟨text, rfl⟩ := exists_parse_of_mem_imports h (ht t htarget) hn
    exact longestModule_eq_some_iff h fun p hp => Name.not_mem_of_mem_parts_parse hp
  constructor
  · rintro ⟨t, htarget, n, hn, s, hs, rfl, rfl⟩
    exact ⟨htarget, n, hn, (hleads t htarget n hn).1 hs⟩
  · rintro ⟨htarget, n, hn, hs⟩
    exact ⟨t, htarget, n, hn, s, (hleads t htarget n hn).2 hs, rfl, rfl⟩

/-- An import graph has one node for each target, however often it is given, and one edge from one
target to another, or to itself, when a name that the latter imports leads to the former. -/
theorem importGraph_displays (m : Model) (ix : Index) (b : Builder) (hbuild : m.build = .ok ix)
    (hindex : b.index = ix) (targets : List EntityId) (ht : ∀ t ∈ targets, t ∈ ix.listed)
    (opts : Options) (c : Dot.Context) :
    ∃ is, Displays (b.importGraph targets opts c).1 (nodeOf (b.nodeStyle opts) c.nextId is) is
        (fun s t => ∃ n ∈ (ix.entity t).imports, LeadsToModule ix n s) ∧
      ∀ i, i ∈ is ↔ i ∈ targets := by
  obtain ⟨hv, rfl⟩ := Model.build_eq_ok_iff.1 hbuild
  have hmem : ∀ i, i ∈ b.sortByName targets.eraseDups ↔ i ∈ targets := fun i =>
    mem_sortByName.trans List.mem_eraseDups
  rw [importGraph_eq_draw]
  refine ⟨_, Plan.displays_draw (p := b.importPlan targets opts)
    (nodup_sortByName (nodup_eraseDups _)) fun s _ t htarget => ?_, hmem⟩
  exact (mem_importPairs_iff hv hindex ht).trans (and_iff_right ((hmem t).1 htarget))

/-- A module that imports from another one three times, once through a variable that stands for it
and once through a class in it, and from outside. -/
def importing : Model where
  entities :=
    [{ name := "p", kind := "module", imports := ["p.short.f", "p.m.C.f", "p.m", "os.path"] },
     { name := "p.m", kind := "module" },
     { name := "p.m.C", kind := "class" },
     { name := "p.short", kind := "variable", value := "p.m" }]

theorem importGraph_displays_of_alias :
    importing.build = .ok importing.index ∧ (∀ t ∈ [1, 0, 1], t ∈ importing.index.listed) ∧
    (importing.index.entity 0).imports.map importing.index.longestModule =
      [some 1, some 1, some 1, none] ∧
    ∃ is, Displays ((pageless importing.index).importGraph [1, 0, 1] {} {}).1
        (nodeOf ((pageless importing.index).nodeStyle {}) 0 is) is
        (fun s t => ∃ n ∈ (importing.index.entity t).imports,
          LeadsToModule importing.index n s) ∧
      ∀ i, i ∈ is ↔ i ∈ [1, 0, 1] := by
  have hbuild : importing.build = .ok importing.index := by decide +kernel
  have ht : ∀ t ∈ [1, 0, 1], t ∈ importing.index.listed := by decide +kernel
  exact ⟨hbuild, ht, by decide +kernel, importGraph_displays importing importing.index
    (pageless importing.index) hbuild rfl [1, 0, 1] ht {} {}⟩

end Builder
end Diagram
end ApiDiagrams
