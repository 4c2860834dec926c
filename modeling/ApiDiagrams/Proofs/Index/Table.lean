import ApiDiagrams.Index
import ApiDiagrams.Proofs.Name
import Mathlib.Data.List.Nodup

/-!
# Indexes as tables

An index in which no name was ever added twice is a table: a list of distinct names, and an entity
for each of them. The number of an entity is the place of its name.

* `Index.Tabulates`: the index is the table of these names and entities;
* `Index.Tabulates.lookup_eq_some_iff`: looking up a name finds its place;
* `Index.Tabulates.add`, `Index.Tabulates.modify`: the table after a change.
-/

namespace ApiDiagrams
namespace Index

/-- The index lists the entities `f n` of distinct names `n`, in order, and has no others. -/
structure Tabulates (ix : Index) (names : List String) (f : String → Entity) : Prop where
  entities : ix.entities.toList = names.map f
  listed : ix.listed = List.range names.length
  nodup : names.Nodup
  name : ∀ n ∈ names, (f n).name = Name.parse n

namespace Tabulates

variable {ix : Index} {names : List String} {f : String → Entity}

theorem place_unique (h : ix.Tabulates names f) {i j : EntityId} {n : String}
    (hi : names[i]? = some n) (hj : names[j]? = some n) : i = j :=
  (List.getElem?_inj (List.getElem?_eq_some_iff.1 hi).1 h.nodup).1 (hi.trans hj.symm)

theorem size_entities (h : ix.Tabulates names f) : ix.entities.size = names.length := by
  rw [← Array.length_toList, h.entities, List.length_map]

/-- A table leaves only the profile open. -/
theorem eq_mk (h : ix.Tabulates names f) :
    ix = ⟨(names.map f).toArray, List.range names.length, ix.profile⟩ := by
  obtain ⟨entities, listed, profile⟩ := ix
  obtain ⟨hentities, hlisted, -, -⟩ := h
  dsimp only at *
  rw [hlisted, ← hentities]

theorem nextId_eq (h : ix.Tabulates names f) : ix.nextId = names.length := h.size_entities

theorem entity_eq (h : ix.Tabulates names f) {i : EntityId} {n : String}
    (hi : names[i]? = some n) : ix.entity i = f n := by
  have hf : ix.entities.toList[i]? = some (f n) := by rw [h.entities, List.getElem?_map, hi]; rfl
  rw [Array.getElem?_toList] at hf
  rw [entity, Array.getD_eq_getD_getElem?, hf]
  rfl

theorem nameOf_eq (h : ix.Tabulates names f) {i : EntityId} {n : String}
    (hi : names[i]? = some n) : ix.nameOf i = Name.parse n := by
  rw [nameOf, h.entity_eq hi, h.name n (List.mem_of_getElem? hi)]

theorem mem_listed_iff (h : ix.Tabulates names f) {i : EntityId} :
    i ∈ ix.listed ↔ ∃ n, names[i]? = some n := by
  simp [h.listed, List.getElem?_eq_some_iff]

theorem lookup_eq_some_iff (h : ix.Tabulates names f) {n : String} {i : EntityId} :
    ix.lookup n = some i ↔ names[i]? = some n := by
  have htext : ∀ j m, names[j]? = some m → ((ix.nameOf j).text == n) = decide (m = n) := by
    intro j m hj
    rw [h.nameOf_eq hj, Name.text_parse]
    rfl
  -- the first place with the name is the only one
  rw [lookup, h.listed, List.find?_range_eq_some]
  constructor
  · rintro ⟨hi, hmem, -⟩
    have hj := List.getElem?_eq_getElem (List.mem_range.1 hmem)
    rw [htext _ _ hj, decide_eq_true_eq] at hi
    rw [hj, hi]
  · intro hi
    have hlt : i < names.length := (List.getElem?_eq_some_iff.1 hi).1
    refine ⟨by simp [htext _ _ hi], List.mem_range.2 hlt, fun j hj => ?_⟩
    have hj' := List.getElem?_eq_getElem (hj.trans hlt)
    rw [htext _ _ hj', Bool.not_eq_true', decide_eq_false_iff_not]
    intro hn
    rw [hn] at hj'
    exact hj.ne (h.place_unique hj' hi)

theorem lookup_eq_none_iff (h : ix.Tabulates names f) {n : String} :
    ix.lookup n = none ↔ n ∉ names := by
  rw [← not_iff_not, not_not, List.mem_iff_getElem?, ← Ne, Option.ne_none_iff_exists']
  simp only [h.lookup_eq_some_iff]

/-- Only the entities of the names matter. -/
theorem congr (h : ix.Tabulates names f) {g : String → Entity} (hfg : ∀ n ∈ names, f n = g n) :
    ix.Tabulates names g where
  entities := by rw [h.entities, List.map_congr_left hfg]
  listed := h.listed
  nodup := h.nodup
  name n hn := by rw [← hfg n hn, h.name n hn]

/-- A new name takes the next place. -/
theorem add (h : ix.Tabulates names f) {n : String} (hn : n ∉ names) {e : Entity}
    (hf : f n = e) (he : e.name = Name.parse n) : (ix.add e).Tabulates (names ++ [n]) f := by
  have hget : ix.get e.name = none := by
    rw [get, he, Name.text_parse, h.lookup_eq_none_iff]
    exact hn
  refine ⟨?_, ?_, ?_, fun m hm => ?_⟩
  · simp [Index.add, h.entities, hf]
  · simp [Index.add, hget, h.listed, h.nextId_eq, List.range_succ]
  · exact List.nodup_append.2 ⟨h.nodup, List.nodup_singleton n, fun a ha b hb => by
      rw [List.mem_singleton.1 hb]
      rintro rfl
      exact hn ha⟩
  · rcases List.mem_append.1 hm with hm | hm
    · exact h.name m hm
    · rw [List.mem_singleton.1 hm, hf, he]

/-- A change to the entity at the place of a name. -/
theorem modify (h : ix.Tabulates names f) {n : String} {i : EntityId} (hi : names[i]? = some n)
    {g : Entity → Entity} (hg : (g (f n)).name = (f n).name) :
    (ix.modify i g).Tabulates names (Function.update f n (g (f n))) := by
  refine ⟨?_, h.listed, h.nodup, fun m hm => ?_⟩
  · refine List.ext_getElem? fun j => ?_
    rw [Index.modify, Array.toList_modify, h.entities, List.getElem?_modify, List.getElem?_map,
      List.getElem?_map]
    cases hj : names[j]? with
    | none => simp
    | some m =>
      by_cases hij : i = j
      · have hmn : m = n := by rw [← hij, hi] at hj; exact (Option.some.inj hj).symm
        simp [hij, hmn]
      · have hmn : m ≠ n := by
          rintro rfl
          exact hij (h.place_unique hi hj)
        simp [hij, hmn]
  · by_cases hmn : m = n
    · subst hmn
      rw [Function.update_self, hg, h.name m hm]
    · rw [Function.update_of_ne hmn, h.name m hm]

end Tabulates
end Index
end ApiDiagrams
