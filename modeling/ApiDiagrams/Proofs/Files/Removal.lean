import ApiDiagrams.Proofs.Files.Tree

/-!
# Reading, removing, moving and listing files

A file that can be read can be removed, and then it is gone and nothing else is. Moving a file puts
its content in another place. Whatever stands directly in a directory is listed.

* `read_eq_ok_iff`, `remove_of_read`, `eq_drop_of_remove`, `rename_eq_ok_iff`: single operations;
* `list_of_leads`, `mem_of_list`: that a directory can be listed, and what a list holds;
* `Leads.directory`, `Leads.stat_clean`: the directories that a file needs to be reached;
* `Shrinks`: nothing was added to a tree.
-/

namespace ApiDiagrams
namespace FileTree

variable {t t' t'' : FileTree} {path name : String} {content : ByteArray}

/-! ### Reading -/

theorem stat_eq_ok_iff {e : FileEntry} :
    t.stat path = .ok e ↔ t.Leads path ∧ t.get? (placeOf path) = some e := by
  unfold stat
  rw [bind_eq_ok_iff]
  constructor
  · rintro ⟨p, hp, h⟩
    obtain ⟨hl, rfl⟩ := locate_eq_ok_iff.1 hp
    split at h
    next e' he => exact ⟨hl, by rw [he, Except.ok.inj h]⟩
    next => cases h
  · rintro ⟨hl, he⟩
    exact ⟨_, locate_eq_ok_iff.2 ⟨hl, rfl⟩, by rw [he]; rfl⟩

theorem read_eq_ok_iff : t.read path = .ok content ↔
    t.Leads path ∧ t.get? (placeOf path) = some (.file content) := by
  unfold read
  rw [bind_eq_ok_iff, ← stat_eq_ok_iff]
  constructor
  · rintro ⟨e, he, h⟩
    cases e with
    | file content' => rw [he, Except.ok.inj h]
    | directory => cases h
  · intro h
    exact ⟨_, h, rfl⟩

/-- Where nothing stands there is nothing to read. -/
theorem read_eq_missing (hl : t.Leads path) (h : t.get? (placeOf path) = none) :
    t.read path = .error .missing := by
  have hstat : t.stat path = .error .missing := by
    unfold stat
    refine bind_eq_error_iff.2 (Or.inr ⟨_, locate_eq_ok_iff.2 ⟨hl, rfl⟩, ?_⟩)
    rw [h]
  rw [read, hstat]
  rfl

/-! ### Removing -/

theorem lookup_drop (t : FileTree) (p q : Place) :
    (t.drop p).entries.lookup q = if q = p then none else t.entries.lookup q := by
  unfold drop
  induction t.entries with
  | nil => simp
  | cons x l ih =>
    obtain ⟨k, e⟩ := x
    by_cases hk : k = p
    · subst hk
      rw [List.filter_cons_of_neg (by simp), ih]
      by_cases hq : q = k
      · simp [hq]
      · simp [hq, List.lookup_cons, beq_eq_false_iff_ne.2 hq]
    · rw [List.filter_cons_of_pos (by simpa using hk), List.lookup_cons, List.lookup_cons, ih]
      by_cases hq : q = k
      · subst hq
        simp [hk]
      · simp [beq_eq_false_iff_ne.2 hq]

/-- What is dropped is gone, unless it always stands. -/
theorem get?_drop (t : FileTree) (p q : Place) :
    (t.drop p).get? q = if q = p then standing? q else t.get? q := by
  unfold get?
  rw [lookup_drop]
  split_ifs <;> simp

theorem remove_of_read (h : t.read path = .ok content) :
    t.remove path = .ok (t.drop (placeOf path)) := by
  obtain ⟨hl, hfile⟩ := read_eq_ok_iff.1 h
  unfold remove
  refine bind_eq_ok_iff.2 ⟨_, locate_eq_ok_iff.2 ⟨hl, rfl⟩, ?_⟩
  rw [hfile]
  rfl

theorem eq_drop_of_remove (h : t.remove path = .ok t') :
    t.Leads path ∧ t' = t.drop (placeOf path) := by
  unfold remove at h
  rw [bind_eq_ok_iff] at h
  obtain ⟨p, hp, h⟩ := h
  obtain ⟨hl, rfl⟩ := locate_eq_ok_iff.1 hp
  refine ⟨hl, ?_⟩
  split at h
  next => cases h
  next => exact (Except.ok.inj h).symm
  next =>
    split_ifs at h
    exact (Except.ok.inj h).symm

/-! ### Moving -/

theorem rename_eq_ok_iff {source target : String} : t.rename source target = .ok t' ↔
    ∃ content, t.read source = .ok content ∧ t.Writable target ∧
      t' = (t.drop (placeOf source)).put (placeOf target) (.file content) := by
  unfold rename Writable
  simp only [bind_eq_ok_iff, locate_eq_ok_iff]
  constructor
  · rintro ⟨p, ⟨-, rfl⟩, content, hread, q, ⟨htarget, rfl⟩, h⟩
    split at h
    next => cases h
    next hd => exact ⟨content, hread, ⟨htarget, hd⟩, (Except.ok.inj h).symm⟩
  · rintro ⟨content, hread, ⟨htarget, hd⟩, rfl⟩
    refine ⟨_, ⟨(read_eq_ok_iff.1 hread).1, rfl⟩, content, hread, _, ⟨htarget, rfl⟩, ?_⟩
    split
    next h => exact absurd h hd
    next => rfl

/-! ### Listing -/

theorem list_of_leads (hl : t.Leads path) (hd : t.get? (placeOf path) = some .directory) :
    ∃ entries, t.list path = .ok entries := by
  cases hlist : t.list path with
  | ok entries => exact ⟨entries, rfl⟩
  | error e =>
    unfold list at hlist
    rcases bind_eq_error_iff.1 hlist with hlocate | ⟨p, hp, hlist⟩
    · rw [locate_eq_ok_iff.2 ⟨hl, rfl⟩] at hlocate
      cases hlocate
    · obtain ⟨-, rfl⟩ := locate_eq_ok_iff.1 hp
      rw [hd] at hlist
      cases hlist

theorem list_ne_missing (h : t.stat path = .ok .directory) : t.list path ≠ .error .missing := by
  obtain ⟨hl, hdir⟩ := stat_eq_ok_iff.1 h
  obtain ⟨entries, hlist⟩ := list_of_leads hl hdir
  rw [hlist]
  exact nofun

/-- What stands directly in a directory is listed. -/
theorem mem_of_list {entries : List (String × FileEntry)} (h : t.list path = .ok entries)
    {e : FileEntry} (hs : standing? (placeOf path ++ [name]) = none)
    (he : t.get? (placeOf path ++ [name]) = some e) : (name, e) ∈ entries := by
  unfold list at h
  rw [bind_eq_ok_iff] at h
  obtain ⟨p, hp, h⟩ := h
  obtain ⟨-, rfl⟩ := locate_eq_ok_iff.1 hp
  split at h
  next =>
    obtain rfl := Except.ok.inj h
    have hlookup : t.entries.lookup (placeOf path ++ [name]) = some e := by
      rwa [get?, hs, Option.none_or] at he
    obtain ⟨before, after, hentries, -⟩ := List.lookup_eq_some_iff.1 hlookup
    rw [(List.mergeSort_perm _ _).mem_iff, List.mem_filterMap]
    refine ⟨(placeOf path ++ [name], e), by rw [hentries]; simp, ?_⟩
    have hbelow : (placeOf path).isPrefixOf (placeOf path ++ [name]) = true :=
      List.isPrefixOf_iff_prefix.2 (List.prefix_append _ _)
    simp [hbelow]
  next => cases h
  next => cases h

/-! ### Directories on the way -/

/-- The directory of a file that can be reached stands. -/
theorem Leads.directory (hp : path ≠ "") (hn : Path.IsName name)
    (h : t.Leads (Path.join [path, name])) : t.get? (placeOf path) = some .directory := by
  rw [placeOf_eq_lay]
  exact ((leads_join_iff hp hn).1 h).2.1 _ List.suffix_rfl

/-- The directory of a file that can be reached is found under its clean path. -/
theorem Leads.stat_clean (hp : path ≠ "") (hn : Path.IsName name)
    (h : t.Leads (Path.join [path, name])) : t.stat (Path.clean path) = .ok .directory :=
  stat_front hp hn h (Path.mem_fronts_self (Path.clean_ne_empty path))

/-- The directory above that of a file that can be reached is found too. -/
theorem Leads.stat_clean_above {sub : String} (hp : path ≠ "") (hs : Path.IsName sub)
    (hn : Path.IsName name) (h : t.Leads (Path.join [Path.join [path, sub], name])) :
    t.stat (Path.clean path) = .ok .directory := by
  have hsub := h.stat_clean (Path.join_ne_empty hp hs.piece.1) hn
  rw [Path.join_pair hp hs.piece.1, Path.clean_clean, ← Path.join_pair hp hs.piece.1] at hsub
  exact (stat_eq_ok_iff.1 hsub).1.stat_clean hp hs

/-! ### Trees that shrink -/

/-- Nothing stands in the second tree that does not stand in the first. -/
def Shrinks (t t' : FileTree) : Prop := ∀ q e, t'.get? q = some e → t.get? q = some e

theorem Shrinks.refl (t : FileTree) : t.Shrinks t := fun _ _ h => h

theorem Shrinks.trans (h : t.Shrinks t') (h' : t'.Shrinks t'') : t.Shrinks t'' :=
  fun q e he => h q e (h' q e he)

theorem shrinks_drop (t : FileTree) (p : Place) : t.Shrinks (t.drop p) := by
  intro q e he
  rw [get?_drop] at he
  split_ifs at he with hq
  · rw [get?, he, Option.some_or]
  · exact he

end FileTree
end ApiDiagrams
