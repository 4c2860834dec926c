import ApiDiagrams.Proofs.Index.Calls

/-!
# Indexes and their histories

Entities are added to an index and calls are recorded in it, in any order and as often as one likes.
An entity may come under a name that is taken, and then it replaces the entity there; it may have
been replaced itself and be added once more. What the index holds after all that is what the list of
these events says.

* `Event`, `History`: what is done to an index, and the indexes that it can lead to;
* `additions`, `addedNames`, `latest`, `recordedCalls`: what the events say, apart from any index;
* `Listing`, `Listing.enter`: a list of entities that says of names what the events do, and one more
  addition to it;
* `Slots`: a list and a map from names that are kept side by side;
* `History.listing`, `History.slots`, `History.getD_profile`: every history keeps these;
* `Records`, `History.records`, `records_of_history`: what an index holds is what its history says.
-/

namespace ApiDiagrams
namespace Index

/-! ### Histories -/

/-- Something that is done to an index. -/
inductive Event
  /-- An entity is added, and its name is written so. -/
  | added (name : String) (i : EntityId)
  | called (caller callee : EntityId)
  /-- The index is marked as profiled. -/
  | profiled
  deriving DecidableEq

/-- Puts an entity in the place of an old one, or at the end if there is none. -/
def enter (listed : List EntityId) (old : Option EntityId) (i : EntityId) : List EntityId :=
  match old with
  | some old => listed.map fun j => if j = old then i else j
  | none => listed ++ [i]

theorem add_eq (ix : Index) (e : Entity) : ix.add e =
    { ix with
      entities := ix.entities.push e
      listed := enter ix.listed (ix.get e.name) ix.nextId } := rfl

/-- Adds an entity that the index knows already, as `Index.add` adds a new one. -/
def again (ix : Index) (i : EntityId) : Index :=
  { ix with listed := enter ix.listed (ix.get (ix.nameOf i)) i }

variable {past : List Event} {ix : Index} {listed : List EntityId} {key key' : EntityId → String}
  {n : String} {i u v : EntityId}

/-- The events can lead to the index, the last one last. In between, entities may have been changed
in place, apart from their names. -/
inductive History : List Event → Index → Prop
  | start : History [] empty
  | add {past : List Event} {ix : Index} (h : History past ix) (e : Entity) :
      History (past ++ [.added e.name.text ix.nextId]) (ix.add e)
  | again {past : List Event} {ix : Index} {i : EntityId} (h : History past ix)
      (known : i < ix.nextId) : History (past ++ [.added (ix.nameOf i).text i]) (ix.again i)
  | call {past : List Event} {ix : Index} (h : History past ix) (caller callee : EntityId) :
      History (past ++ [.called caller callee]) (ix.addCall caller callee)
  | profile {past : List Event} {ix : Index} (h : History past ix) :
      History (past ++ [.profiled]) ix.enableProfile
  | change {past : List Event} {ix : Index} (h : History past ix) (i : EntityId)
      {f : Entity → Entity} (name : ∀ e, (f e).name = e.name) : History past (ix.modify i f)

/-! ### What the events say -/

/-- The name and the entity of an addition. -/
def Event.addition? : Event → Option (String × EntityId)
  | .added name i => some (name, i)
  | _ => none

/-- The caller and the callee of a call. -/
def Event.call? : Event → Option (EntityId × EntityId)
  | .called caller callee => some (caller, callee)
  | _ => none

/-- The additions, with the names. -/
def additions (past : List Event) : List (String × EntityId) := past.filterMap Event.addition?

/-- The names that were ever added, in the order of their first additions. -/
def addedNames (past : List Event) : List String := ((additions past).map Prod.fst).eraseDups

/-- The entity that was added last under the name, if any was. -/
def latest (past : List Event) (n : String) : Option EntityId :=
  (additions past).reverse.lookup n

/-- The calls, in order, as caller and callee. -/
def recordedCalls (past : List Event) : List (EntityId × EntityId) := past.filterMap Event.call?

theorem mem_recordedCalls_iff : (u, v) ∈ recordedCalls past ↔ .called u v ∈ past := by
  rw [recordedCalls, List.mem_filterMap]
  constructor
  · rintro ⟨e, he, hc⟩
    cases e with
    | added | profiled => cases hc
    | called caller callee =>
      cases hc
      exact he
  · intro h
    exact ⟨_, h, rfl⟩

theorem mem_additions_iff : (n, i) ∈ additions past ↔ .added n i ∈ past := by
  rw [additions, List.mem_filterMap]
  constructor
  · rintro ⟨e, he, ha⟩
    cases e with
    | called | profiled => cases ha
    | added name j =>
      cases ha
      exact he
  · intro h
    exact ⟨_, h, rfl⟩

theorem mem_addedNames_iff : n ∈ addedNames past ↔ ∃ i, .added n i ∈ past := by
  rw [addedNames, List.mem_eraseDups, List.mem_map]
  simp only [Prod.exists, exists_and_right, exists_eq_right, mem_additions_iff]

theorem additions_added : additions (past ++ [.added n i]) = additions past ++ [(n, i)] := by
  simp [additions, Event.addition?]

theorem additions_of_not_added {e : Event} (h : e.addition? = none) :
    additions (past ++ [e]) = additions past := by
  simp [additions, h]

theorem recordedCalls_called :
    recordedCalls (past ++ [.called u v]) = recordedCalls past ++ [(u, v)] := by
  simp [recordedCalls, Event.call?]

theorem recordedCalls_of_not_called {e : Event} (h : e.call? = none) :
    recordedCalls (past ++ [e]) = recordedCalls past := by
  simp [recordedCalls, h]

theorem addedNames_added : addedNames (past ++ [.added n i]) = addOnce (addedNames past) n := by
  rw [addedNames, additions_added, List.map_append]
  exact eraseDups_concat _ _

theorem latest_added (m : String) :
    latest (past ++ [.added n i]) m = if m = n then some i else latest past m := by
  rw [latest, additions_added, List.reverse_append, List.reverse_singleton, List.singleton_append,
    List.lookup_cons]
  by_cases h : m = n
  · simp [h]
  · rw [if_neg h, beq_eq_false_iff_ne.2 h]
    rfl

theorem latest_eq_none_iff : latest past n = none ↔ n ∉ addedNames past := by
  rw [latest, List.lookup_eq_none_iff, addedNames, List.mem_eraseDups]
  simp only [List.mem_reverse, bne_iff_ne, List.mem_map, not_exists, not_and]
  exact forall₂_congr fun _ _ => ne_comm

/-! ### The listed entities -/

/-- The list has one entity for each name that was ever added, in the order of the first additions,
and it is the one added last. -/
structure Listing (past : List Event) (listed : List EntityId) (key : EntityId → String) :
    Prop where
  names : listed.map key = addedNames past
  latest : ∀ i ∈ listed, latest past (key i) = some i

namespace Listing

theorem find?_eq (h : Listing past listed key) (n : String) :
    (listed.find? fun i => key i == n) = Index.latest past n := by
  cases hfind : listed.find? fun i => key i == n with
  | some i =>
    obtain rfl : key i = n := by simpa using List.find?_some hfind
    exact (h.latest i (List.mem_of_find?_eq_some hfind)).symm
  | none =>
    symm
    rw [latest_eq_none_iff, ← h.names, List.mem_map]
    rintro ⟨i, hi, hn⟩
    simpa [hn] using List.find?_eq_none.1 hfind i hi

theorem nodup (h : Listing past listed key) : listed.Nodup :=
  List.Nodup.of_map key (h.names ▸ nodup_eraseDups _)

theorem map_some (h : Listing past listed key) :
    listed.map some = (addedNames past).map (Index.latest past) := by
  rw [← h.names, List.map_map]
  exact List.map_congr_left fun i hi => (h.latest i hi).symm

theorem mem_of_latest (h : Listing past listed key) (hi : Index.latest past n = some i) :
    i ∈ listed ∧ key i = n := by
  rw [← h.find?_eq] at hi
  exact ⟨List.mem_of_find?_eq_some hi, by simpa using List.find?_some hi⟩

/-- A name has no other entity than the one added last. -/
theorem eq_of_key (h : Listing past listed key) {old j : EntityId}
    (hold : Index.latest past n = some old) (hj : j ∈ listed) (hn : key j = n) : j = old := by
  have hlatest := h.latest j hj
  rw [hn, hold] at hlatest
  exact (Option.some.inj hlatest).symm

/-- An entity of a new name comes to the end. -/
theorem append (h : Listing past listed key) (hnew : n ∉ addedNames past)
    (hkey : ∀ j ∈ listed, key' j = key j) (hi : key' i = n) :
    Listing (past ++ [.added n i]) (listed ++ [i]) key' := by
  rw [← h.names] at hnew
  constructor
  · rw [addedNames_added, ← h.names, addOnce, if_neg hnew, List.map_append,
      List.map_congr_left hkey, List.map_singleton, hi]
  · intro j hj
    rcases List.mem_append.1 hj with hj | hj
    · have hne : key j ≠ n := fun hn => hnew (hn ▸ List.mem_map_of_mem hj)
      rw [latest_added, hkey j hj, if_neg hne]
      exact h.latest j hj
    · rw [List.mem_singleton.1 hj, latest_added, if_pos hi]

/-- An entity of a name that is taken comes to the place of the old one. -/
theorem replace (h : Listing past listed key) {old : EntityId}
    (hold : Index.latest past n = some old) (hkey : ∀ j ∈ listed, key' j = key j)
    (hi : key' i = n) :
    Listing (past ++ [.added n i]) (listed.map fun j => if j = old then i else j) key' := by
  obtain ⟨hmem, hname⟩ := h.mem_of_latest hold
  constructor
  · rw [addedNames_added, ← h.names, addOnce, if_pos (hname ▸ List.mem_map_of_mem hmem),
      List.map_map]
    refine List.map_congr_left fun j hj => ?_
    by_cases hj' : j = old
    · rw [Function.comp_apply, if_pos hj', hi, hj', hname]
    · rw [Function.comp_apply, if_neg hj', hkey j hj]
  · intro k hk
    obtain ⟨j, hj, rfl⟩ := List.mem_map.1 hk
    by_cases hj' : j = old
    · rw [if_pos hj', latest_added, if_pos hi]
    · have hne : key j ≠ n := fun hn => hj' (h.eq_of_key hold hj hn)
      rw [if_neg hj', latest_added, hkey j hj, if_neg hne]
      exact h.latest j hj

/-- One more addition. The entity takes over its name, and the other listed ones keep theirs. -/
theorem enter (h : Listing past listed key) (hkey : ∀ j ∈ listed, key' j = key j)
    (hi : key' i = n) :
    Listing (past ++ [.added n i]) (Index.enter listed (Index.latest past n) i) key' := by
  cases hold : Index.latest past n with
  | none => exact h.append (latest_eq_none_iff.1 hold) hkey hi
  | some old => exact h.replace hold hkey hi

theorem of_not_added (h : Listing past listed key) {e : Event} (he : e.addition? = none) :
    Listing (past ++ [e]) listed key := by
  have hadditions : additions (past ++ [e]) = additions past := additions_of_not_added he
  constructor
  · rw [addedNames, hadditions]
    exact h.names
  · unfold Index.latest
    rw [hadditions]
    exact h.latest

end Listing

/-! ### A list and a map side by side -/

/-- A list of entities, and a map from names to entities that has to stay in step with it. -/
structure Slots where
  listed : List EntityId
  byName : String → Option EntityId

namespace Slots

/-- No entities. -/
def empty : Slots := ⟨[], fun _ => none⟩

/-- Adds an entity: in the place of the one that the map has under the name, or at the end. There is
no such place when the map has an entity that the list lacks. -/
def enter (s : Slots) (addition : String × EntityId) : Option Slots :=
  match s.byName addition.1 with
  | none => some ⟨s.listed ++ [addition.2], Function.update s.byName addition.1 (some addition.2)⟩
  | some old =>
    if old ∈ s.listed then
      some ⟨s.listed.set (s.listed.idxOf old) addition.2,
        Function.update s.byName addition.1 (some addition.2)⟩
    else none

theorem enter_eq (h : Listing past listed key) (n : String) (i : EntityId) :
    enter ⟨listed, latest past⟩ (n, i) =
      some ⟨Index.enter listed (latest past n) i, latest (past ++ [.added n i])⟩ := by
  have hmap : Function.update (latest past) n (some i) = latest (past ++ [.added n i]) := by
    funext m
    rw [latest_added, Function.update_apply]
  simp only [enter, hmap]
  cases hold : latest past n with
  | none => rfl
  | some old =>
    have hmem := (h.mem_of_latest hold).1
    have hset : listed.set (listed.idxOf old) i = listed.map fun j => if j = old then i else j := by
      have hupdate := h.nodup.map_update id old i
      rw [if_pos hmem, List.map_id] at hupdate
      rw [← hupdate]
      exact List.map_congr_left fun j _ => Function.update_apply id old i j
    simp only [if_pos hmem, hset, Index.enter]

/-- One more addition keeps the map in step with the list. -/
theorem foldlM_added (h : Listing past listed key)
    (hs : (additions past).foldlM enter empty = some ⟨listed, latest past⟩) :
    (additions (past ++ [.added n i])).foldlM enter empty =
      some ⟨Index.enter listed (latest past n) i, latest (past ++ [.added n i])⟩ := by
  rw [additions_added, List.foldlM_append, hs, Option.bind_eq_bind, Option.bind_some,
    List.foldlM_cons, enter_eq h]
  rfl

end Slots

/-! ### One step of a history -/

theorem nameOf_add_of_lt (ix : Index) (e : Entity) {j : EntityId} (hj : j < ix.nextId) :
    (ix.add e).nameOf j = ix.nameOf j := by
  rw [nameOf, nameOf, entity, entity, add_eq, Array.getD_eq_getD_getElem?,
    Array.getD_eq_getD_getElem?, Array.getElem?_push_lt hj, Array.getElem?_eq_getElem hj]

theorem nameOf_add_nextId (ix : Index) (e : Entity) : (ix.add e).nameOf ix.nextId = e.name := by
  rw [nameOf, entity, add_eq, Array.getD_eq_getD_getElem?, nextId, Array.getElem?_push_size]
  rfl

theorem nextId_add (ix : Index) (e : Entity) : (ix.add e).nextId = ix.nextId + 1 :=
  Array.size_push e

theorem nameOf_modify (ix : Index) (i j : EntityId) {f : Entity → Entity}
    (hf : ∀ e, (f e).name = e.name) : (ix.modify i f).nameOf j = ix.nameOf j := by
  rw [nameOf, nameOf, entity, entity, modify, Array.getD_eq_getD_getElem?,
    Array.getD_eq_getD_getElem?, Array.getElem?_modify]
  by_cases hij : i = j
  · rw [if_pos hij]
    cases ix.entities[j]? with
    | none => rfl
    | some e => exact hf e
  · rw [if_neg hij]

theorem mem_enter {listed : List EntityId} {old : Option EntityId} {i j : EntityId}
    (h : j ∈ enter listed old i) : j ∈ listed ∨ j = i := by
  cases old with
  | none => simpa [enter] using h
  | some old =>
    obtain ⟨k, hk, rfl⟩ := List.mem_map.1 h
    split_ifs
    · exact Or.inr rfl
    · exact Or.inl hk

/-! ### Every history -/

namespace History

/-- Only entities that were added are listed. -/
theorem lt_nextId (h : History past ix) : ∀ i ∈ ix.listed, i < ix.nextId := by
  induction h with
  | start => simp [Index.empty]
  | @add past ix h e ih =>
    intro j hj
    rw [nextId_add]
    rcases mem_enter hj with hj | rfl
    · exact Nat.lt_succ_of_lt (ih j hj)
    · exact Nat.lt_succ_self _
  | again h known ih =>
    intro j hj
    rcases mem_enter hj with hj | rfl
    · exact ih j hj
    · exact known
  | call h caller callee ih => exact ih
  | profile h ih => exact ih
  | change h i name ih =>
    intro j hj
    rw [nextId, modify, Array.size_modify]
    exact ih j hj

/-- The listed entities and their names are those that the events say. -/
theorem listing (h : History past ix) :
    Listing past ix.listed fun i => (ix.nameOf i).text := by
  induction h with
  | start => exact ⟨rfl, by simp [Index.empty]⟩
  | @add past ix h e ih =>
    have hget : ix.get e.name = latest past e.name.text := ih.find?_eq _
    rw [add_eq, hget]
    refine ih.enter (fun j hj => ?_) ?_
    · exact congrArg Name.text (nameOf_add_of_lt ix e (h.lt_nextId j hj))
    · exact congrArg Name.text (nameOf_add_nextId ix e)
  | @again past ix i h known ih =>
    have hget : ix.get (ix.nameOf i) = latest past (ix.nameOf i).text := ih.find?_eq _
    rw [Index.again, hget]
    exact ih.enter (fun _ _ => rfl) rfl
  | call h caller callee ih => exact ih.of_not_added rfl
  | profile h ih => exact ih.of_not_added rfl
  | change h i name ih =>
    simp only [nameOf_modify _ _ _ name]
    exact ih

theorem lookup_eq (h : History past ix) : ix.lookup = latest past :=
  funext h.listing.find?_eq

/-- A list and a map that are kept side by side never get out of step, and they are what the index
lists and looks up. -/
theorem slots (h : History past ix) :
    (additions past).foldlM Slots.enter Slots.empty = some ⟨ix.listed, ix.lookup⟩ := by
  induction h with
  | start => rfl
  | @add past ix h e ih =>
    have hget : ix.get e.name = latest past e.name.text := h.listing.find?_eq _
    rw [(h.add e).lookup_eq, add_eq, hget]
    rw [h.lookup_eq] at ih
    exact Slots.foldlM_added h.listing ih
  | @again past ix i h known ih =>
    have hget : ix.get (ix.nameOf i) = latest past (ix.nameOf i).text := h.listing.find?_eq _
    rw [(h.again known).lookup_eq, Index.again, hget]
    rw [h.lookup_eq] at ih
    exact Slots.foldlM_added h.listing ih
  | call h caller callee ih =>
    rw [additions_of_not_added rfl, ih]
    rfl
  | profile h ih =>
    rw [additions_of_not_added rfl, ih]
    rfl
  | change h i name ih =>
    rw [ih, h.lookup_eq, (h.change i name).lookup_eq]
    rfl

/-- The profile holds the calls, one after the other. -/
theorem getD_profile (h : History past ix) : ix.profile.getD {} =
    (recordedCalls past).foldl (fun p c => p.addCall c.1 c.2) {} := by
  induction h with
  | start => rfl
  | add h e ih | again h known ih | profile h ih =>
    rw [recordedCalls_of_not_called rfl]
    exact ih
  | call h caller callee ih =>
    rw [recordedCalls_called, List.foldl_append, ← ih]
    rfl
  | change h i name ih => exact ih

/-- There is a profile as soon as anything but an addition happens. -/
theorem hasProfile_iff (h : History past ix) :
    ix.hasProfile = true ↔ ∃ e ∈ past, e.addition? = none := by
  induction h with
  | start => simp [Index.empty, hasProfile]
  | @add past ix h e ih =>
    change ix.hasProfile = true ↔ _
    simp [ih, Event.addition?]
  | @again past ix i h known ih =>
    change ix.hasProfile = true ↔ _
    simp [ih, Event.addition?]
  | call h caller callee ih => simp [addCall, hasProfile, Event.addition?]
  | profile h ih => simp [enableProfile, hasProfile, Event.addition?]
  | change h i name ih => exact ih

theorem callers_eq (h : History past ix) (v : EntityId) : ix.callers v =
    (((recordedCalls past).filter fun c => c.2 = v).map Prod.fst).eraseDups := by
  rw [callers, h.getD_profile, Profile.foldl_addCall]
  exact CallTable.find_foldl_record v

theorem callees_eq (h : History past ix) (u : EntityId) : ix.callees u =
    (((recordedCalls past).filter fun c => c.1 = u).map Prod.snd).eraseDups := by
  rw [callees, h.getD_profile, Profile.foldl_addCall]
  exact CallTable.find_foldl_record u

end History

/-! ### What an index holds -/

/-- The index holds what the events say. -/
structure Records (past : List Event) (ix : Index) : Prop where
  /-- The names of the listed entities are those ever added, in the order of the first additions. -/
  names : ix.listed.map (fun i => (ix.nameOf i).text) = addedNames past
  distinct : (ix.listed.map fun i => (ix.nameOf i).text).Nodup
  added : ∀ n, (∃ i ∈ ix.listed, (ix.nameOf i).text = n) ↔ ∃ i, .added n i ∈ past
  /-- The entity of each name is the one that was added last. -/
  listed : ix.listed.map some = (addedNames past).map (latest past)
  lookup : ∀ n, ix.lookup n = latest past n
  get : ∀ name : Name, ix.get name = latest past name.text
  /-- A list and a map kept side by side are in step, and they are what is listed and looked up. -/
  slots : (additions past).foldlM Slots.enter Slots.empty = some ⟨ix.listed, ix.lookup⟩
  mem_callers : ∀ u v, u ∈ ix.callers v ↔ .called u v ∈ past
  mem_callees : ∀ u v, v ∈ ix.callees u ↔ .called u v ∈ past
  nodup_callers : ∀ v, (ix.callers v).Nodup
  nodup_callees : ∀ u, (ix.callees u).Nodup
  /-- Callers stand in the order of their first calls. -/
  callers : ∀ v, ix.callers v =
    (((recordedCalls past).filter fun c => c.2 = v).map Prod.fst).eraseDups
  /-- Callees stand in the order of the first calls to them. -/
  callees : ∀ u, ix.callees u =
    (((recordedCalls past).filter fun c => c.1 = u).map Prod.snd).eraseDups
  /-- An entity has an entry among the callers when it was called, ... -/
  hasCallers : ∀ v, (ix.profile.getD {}).callers.has v = true ↔ ∃ u, .called u v ∈ past
  /-- ... and one among the callees when it called another one or itself. -/
  hasCallees : ∀ u, (ix.profile.getD {}).callees.has u = true ↔ ∃ v, .called u v ∈ past
  hasProfile : ix.hasProfile = true ↔ .profiled ∈ past ∨ ∃ u v, .called u v ∈ past

/-- Whoever knows that an index has a history knows all of this. -/
theorem History.records (h : History past ix) : Records past ix where
  names := h.listing.names
  distinct := h.listing.names ▸ nodup_eraseDups _
  added n := by
    rw [← mem_addedNames_iff, ← h.listing.names, List.mem_map]
  listed := h.listing.map_some
  lookup := h.listing.find?_eq
  get name := h.listing.find?_eq name.text
  slots := h.slots
  mem_callers u v := by
    rw [h.callers_eq, List.mem_eraseDups, ← mem_recordedCalls_iff]
    simp
  mem_callees u v := by
    rw [h.callees_eq, List.mem_eraseDups, ← mem_recordedCalls_iff]
    simp
  nodup_callers v := h.callers_eq v ▸ nodup_eraseDups _
  nodup_callees u := h.callees_eq u ▸ nodup_eraseDups _
  callers := h.callers_eq
  callees := h.callees_eq
  hasCallers v := by
    rw [h.getD_profile, Profile.foldl_addCall, CallTable.has_foldl_record]
    simp [CallTable.has, ← mem_recordedCalls_iff]
  hasCallees u := by
    rw [h.getD_profile, Profile.foldl_addCall, CallTable.has_foldl_record]
    simp [CallTable.has, ← mem_recordedCalls_iff]
  hasProfile := by
    rw [h.hasProfile_iff]
    constructor
    · rintro ⟨e, he, hnone⟩
      cases e with
      | added => cases hnone
      | called u v => exact Or.inr ⟨u, v, he⟩
      | profiled => exact Or.inl he
    · rintro (h | ⟨u, v, h⟩)
      · exact ⟨_, h, rfl⟩
      · exact ⟨_, h, rfl⟩

theorem records_of_history (h : History past ix) : Records past ix := h.records

/-- A bare entity of one identifier. -/
def bare (identifier : String) (kind : EntityKind) : Entity := { name := ⟨[identifier]⟩, kind }

/-- A routine is called by itself and replaced by a class, which calls it too; then it is added once
more. -/
def replacedIndex : Index :=
  ((((((empty.add (bare "f" .routine)).addCall 0 0).add (bare "m" .module)).add
    (bare "f" .classType)).addCall 2 0).addCall 0 0).again 0

def replacedPast : List Event :=
  [.added "f" 0, .called 0 0, .added "m" 1, .added "f" 2, .called 2 0, .called 0 0, .added "f" 0]

theorem records_of_replaced : History replacedPast replacedIndex ∧
    Records replacedPast replacedIndex ∧ replacedIndex.listed = [0, 1] ∧
    replacedIndex.lookup "f" = some 0 ∧ replacedIndex.callers 0 = [0, 2] ∧
    replacedIndex.callees 0 = [0] ∧ replacedIndex.callees 2 = [0] := by
  have hrun := ((((((History.start.add (bare "f" .routine)).call 0 0).add
    (bare "m" .module)).add (bare "f" .classType)).call 2 0).call 0 0).again (i := 0) (by decide)
  have h : History replacedPast replacedIndex := by
    convert hrun using 1
    · decide +kernel
    · rfl
  exact ⟨h, records_of_history h, by decide, by decide, by decide, by decide, by decide⟩

end Index
end ApiDiagrams
