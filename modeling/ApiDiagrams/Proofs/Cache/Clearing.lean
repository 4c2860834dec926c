import ApiDiagrams.Proofs.Cache.Digest
import ApiDiagrams.Proofs.Cache.History
import ApiDiagrams.Proofs.Files.Rooted

/-!
# What clearing removes

Others may keep files in the directory of a store, so clearing goes by names: it removes the files
that are named as entries in directories that are named as those of entries, and of these
directories the ones that are empty then. Each directory is swept by itself, and what one sweep
does is not touched by the others.

* `FileStore.IsEntryFile`, `FileStore.IsEmptied`: what clearing removes;
* `FileStore.Swept`, `FileStore.Swept.trans`: what is left after some directories were swept;
* `FileStore.Cleaned`, `FileStore.swept_of_list`: the sweep of one directory, its files first;
* `FileStore.swept_of_clearDirs`: the sweep of all directories, one after the other.
-/

namespace ApiDiagrams
namespace Cache
namespace FileStore

open FileTree (placeOf)

variable {s : FileStore} {t t' t₁ t₂ : FileTree} {w : World} {sub name dir : String} {q : Place}
  {n k removed : ℕ}

/-! ### What goes -/

/-- A file named as an entry, in a directory of the given name. -/
def IsEntryFile (s : FileStore) (t : FileTree) (sub : String) (q : Place) : Prop :=
  ∃ name c, IsEntryName name ∧ q = placeOf s.dir ++ [sub] ++ [name] ∧ t.get? q = some (.file c)

/-- A directory of the given name with nothing below it but files named as entries. -/
structure IsEmptied (s : FileStore) (t : FileTree) (sub : String) : Prop where
  directory : t.get? (placeOf s.dir ++ [sub]) = some .directory
  below : ∀ rest e, rest ≠ [] → t.get? (placeOf s.dir ++ [sub] ++ rest) = some e →
    s.IsEntryFile t sub (placeOf s.dir ++ [sub] ++ rest)

/-- What clearing removes of a directory, and maybe the directory itself. -/
def Goes (s : FileStore) (t : FileTree) (sub : String) (q : Place) : Prop :=
  s.IsEntryFile t sub q ∨ q = placeOf s.dir ++ [sub] ∧ s.IsEmptied t sub

/-- What is left of a tree when the directories with the names that `p` picks were swept, and `n`
files were removed. -/
structure Swept (s : FileStore) (p : String → Prop) (t t' : FileTree) (n : ℕ) : Prop where
  gone : ∀ sub q, p sub → s.Goes t sub q → t'.get? q = none
  kept : ∀ q, (∀ sub, p sub → ¬ s.Goes t sub q) → t'.get? q = t.get? q
  count : ∃ qs : List Place, qs.Nodup ∧ qs.length = n ∧
    ∀ q, q ∈ qs ↔ ∃ sub, p sub ∧ s.IsEntryFile t sub q
  tree : t'.IsTree

theorem exists_of_goes (h : s.Goes t sub q) : ∃ rest, q = placeOf s.dir ++ [sub] ++ rest := by
  rcases h with ⟨name, -, -, rfl, -⟩ | ⟨rfl, -⟩
  · exact ⟨[name], rfl⟩
  · exact ⟨[], (List.append_nil _).symm⟩

theorem exists_of_not_isEmptied (hdirectory : t.get? (placeOf s.dir ++ [sub]) = some .directory)
    (h : ¬ s.IsEmptied t sub) : ∃ rest e, rest ≠ [] ∧
      t.get? (placeOf s.dir ++ [sub] ++ rest) = some e ∧
      ¬ s.IsEntryFile t sub (placeOf s.dir ++ [sub] ++ rest) := by
  by_contra hno
  refine h ⟨hdirectory, fun rest e hrest he => ?_⟩
  by_contra hother
  exact hno ⟨rest, e, hrest, he, hother⟩

/-- Whatever goes is in a directory of the store's, or is one. -/
theorem directory_of_goes (ht : t.IsTree) (h : s.Goes t sub q) :
    t.get? (placeOf s.dir ++ [sub]) = some .directory := by
  rcases h with ⟨name, c, -, rfl, hfile⟩ | ⟨-, hempty⟩
  · exact ht.rooted _ name _ hfile
  · exact hempty.directory

/-- A place lies in one directory only. -/
theorem sub_eq {sub' : String} {rest rest' : List String}
    (h : placeOf s.dir ++ [sub] ++ rest = placeOf s.dir ++ [sub'] ++ rest') : sub = sub' := by
  simp only [List.append_assoc, List.singleton_append] at h
  exact (List.cons.inj (List.append_cancel_left h)).1

/-- What goes of a directory is for the directory to say. -/
theorem goes_congr (h : ∀ rest, t₁.get? (placeOf s.dir ++ [sub] ++ rest) =
    t.get? (placeOf s.dir ++ [sub] ++ rest)) :
    (∀ q, s.IsEntryFile t₁ sub q ↔ s.IsEntryFile t sub q) ∧
      ∀ q, s.Goes t₁ sub q ↔ s.Goes t sub q := by
  have hfile : ∀ q, s.IsEntryFile t₁ sub q ↔ s.IsEntryFile t sub q := by
    intro q
    refine exists₂_congr fun name c => and_congr_right fun _ => and_congr_right ?_
    rintro rfl
    rw [h]
  have hself : t₁.get? (placeOf s.dir ++ [sub]) = t.get? (placeOf s.dir ++ [sub]) := by
    simpa only [List.append_nil] using h []
  refine ⟨hfile, fun q => or_congr (hfile q) (and_congr_right fun _ => ?_)⟩
  constructor
  · rintro ⟨hdirectory, hbelow⟩
    refine ⟨hself ▸ hdirectory, fun rest e hrest he => (hfile _).1 (hbelow rest e hrest ?_)⟩
    rwa [h]
  · rintro ⟨hdirectory, hbelow⟩
    refine ⟨hself.trans hdirectory, fun rest e hrest he => (hfile _).2 (hbelow rest e hrest ?_)⟩
    rwa [← h]

/-- One sweep after another, of other directories. -/
theorem Swept.trans {p p' : String → Prop} (h : s.Swept p t t₁ n) (h' : s.Swept p' t₁ t₂ k)
    (hdisjoint : ∀ sub, p sub → ¬ p' sub) :
    s.Swept (fun sub => p sub ∨ p' sub) t t₂ (n + k) := by
  have hregion : ∀ sub, p' sub → ∀ rest, t₁.get? (placeOf s.dir ++ [sub] ++ rest) =
      t.get? (placeOf s.dir ++ [sub] ++ rest) := by
    intro sub hsub rest
    refine h.kept _ fun sub' hsub' hgoes => ?_
    obtain ⟨rest', heq⟩ := exists_of_goes hgoes
    exact hdisjoint sub' hsub' (sub_eq heq ▸ hsub)
  have hcongr := fun sub hsub => goes_congr (hregion sub hsub)
  refine ⟨fun sub q hsub hgoes => ?_, fun q hq => ?_, ?_, h'.tree⟩
  · rcases hsub with hsub | hsub
    · rw [h'.kept q fun sub' hsub' hgoes' => ?_, h.gone sub q hsub hgoes]
      obtain ⟨rest, rfl⟩ := exists_of_goes hgoes
      obtain ⟨rest', heq⟩ := exists_of_goes hgoes'
      exact hdisjoint sub hsub (sub_eq heq ▸ hsub')
    · exact h'.gone sub q hsub (((hcongr sub hsub).2 q).2 hgoes)
  · rw [h'.kept q fun sub hsub hgoes => hq sub (Or.inr hsub) (((hcongr sub hsub).2 q).1 hgoes),
      h.kept q fun sub hsub => hq sub (Or.inl hsub)]
  · obtain ⟨qs, hnodup, hlen, hmem⟩ := h.count
    obtain ⟨qs', hnodup', hlen', hmem'⟩ := h'.count
    refine ⟨qs ++ qs', List.nodup_append.2 ⟨hnodup, hnodup', ?_⟩, by simp [hlen, hlen'], ?_⟩
    · rintro x hx y hy rfl
      obtain ⟨sub, hsub, name, -, -, rfl, -⟩ := (hmem x).1 hx
      obtain ⟨sub', hsub', name', -, -, heq, -⟩ := (hmem' _).1 hy
      exact hdisjoint sub hsub (sub_eq heq ▸ hsub')
    · intro q
      rw [List.mem_append, hmem, hmem', ← exists_or]
      refine exists_congr fun sub => ?_
      rw [or_and_right]
      exact or_congr Iff.rfl (and_congr_right fun hsub => (hcongr sub hsub).1 q)

/-! ### The sweep of one directory -/

theorem isTree_dropAll (ht : t.IsTree) {qs : List Place}
    (hqs : ∀ q ∈ qs, ∀ n, t.entries.lookup (q ++ [n]) = none) : (dropAll t qs).IsTree := by
  induction qs generalizing t with
  | nil => exact ht
  | cons x qs ih =>
    refine ih (ht.drop (hqs x List.mem_cons_self)) fun q hq n => ?_
    rw [FileTree.lookup_drop, hqs q (List.mem_cons_of_mem _ hq) n, ite_self]

/-- The tree after the files named as entries were removed from a directory, which still stands. -/
structure Cleaned (s : FileStore) (sub : String) (t t₁ : FileTree) : Prop where
  gone : ∀ q, s.IsEntryFile t sub q → t₁.get? q = none
  kept : ∀ q, ¬ s.IsEntryFile t sub q → t₁.get? q = t.get? q
  tree : t₁.IsTree

section

variable {entries : List (String × FileEntry)}

/-- The names of entries that a directory lists are those of its files that go. -/
theorem mem_places_iff (h : s.IsProper) (ht : t.IsTree) (hsub : IsSubName sub)
    (hlist : t.list (Path.join [s.dir, sub]) = .ok entries) :
    q ∈ (entryNames entries).map (placeOf (Path.join [s.dir, sub]) ++ [·]) ↔
      s.IsEntryFile t sub q := by
  have hfile : ∀ name c, (name, .file c) ∈ entries ↔
      t.get? (placeOf s.dir ++ [sub] ++ [name]) = some (.file c) := by
    intro name c
    rw [ht.mem_list_iff hlist, FileTree.placeOf_join h.named hsub.isName,
      FileTree.get?_of_standing?_eq_none (FileTree.standing?_append (hsub.standing? _) _)]
  rw [FileTree.placeOf_join h.named hsub.isName, List.mem_map]
  constructor
  · rintro ⟨name, hname, rfl⟩
    obtain ⟨hname, c, hc⟩ := mem_entryNames_iff.1 hname
    exact ⟨name, c, hname, rfl, (hfile name c).1 hc⟩
  · rintro ⟨name, c, hname, rfl, hc⟩
    exact ⟨name, mem_entryNames_iff.2 ⟨hname, c, (hfile name c).2 hc⟩, rfl⟩

/-- No file is removed twice. -/
theorem count_of_list (h : s.IsProper) (ht : t.IsTree) (hsub : IsSubName sub)
    (hlist : t.list (Path.join [s.dir, sub]) = .ok entries) :
    ∃ qs : List Place, qs.Nodup ∧ qs.length = (entryNames entries).length ∧
      ∀ q, q ∈ qs ↔ ∃ sub', sub' = sub ∧ s.IsEntryFile t sub' q := by
  refine ⟨(entryNames entries).map (placeOf (Path.join [s.dir, sub]) ++ [·]),
    List.Nodup.map (fun x y hxy => ?_)
      ((ht.nodup_of_list hlist).sublist (List.filter_sublist.map Prod.fst)),
    List.length_map _, fun q => by rw [exists_eq_left, mem_places_iff h ht hsub hlist]⟩
  simpa using hxy

theorem cleaned_withoutEntries (h : s.IsProper) (ht : t.IsTree) (hsub : IsSubName sub)
    (hlist : t.list (Path.join [s.dir, sub]) = .ok entries) :
    s.Cleaned sub t (withoutEntries t (Path.join [s.dir, sub]) entries) := by
  have hmem : ∀ q, _ ↔ s.IsEntryFile t sub q := fun q => mem_places_iff h ht hsub hlist
  have hget := fun q => get?_dropAll (t := t) (q := q) fun x hx => by
    obtain ⟨name, -, -, rfl, -⟩ := (hmem x).1 hx
    exact FileTree.standing?_append (hsub.standing? _) _
  refine ⟨fun q hq => (hget q).trans (if_pos ((hmem q).2 hq)),
    fun q hq => (hget q).trans (if_neg fun hin => hq ((hmem q).1 hin)),
    isTree_dropAll ht fun x hx n => ?_⟩
  obtain ⟨name, c, -, -, hc⟩ := (hmem x).1 hx
  exact ht.leaf_of_file hc n

end

/-- The files that go are deeper than their directory and those above it. -/
theorem not_isEntryFile_of_isPrefix (hq : q <+: placeOf s.dir ++ [sub]) :
    ¬ s.IsEntryFile t sub q := by
  rintro ⟨name, -, -, rfl, -⟩
  simpa using hq.length_le

namespace Cleaned

variable (hcleaned : s.Cleaned sub t t₁)

include hcleaned

theorem get?_directory : t₁.get? (placeOf s.dir ++ [sub]) = t.get? (placeOf s.dir ++ [sub]) :=
  hcleaned.kept _ (not_isEntryFile_of_isPrefix List.prefix_rfl)

theorem leads (h : s.IsProper) (hsub : IsSubName sub) (hleads : t.Leads (Path.join [s.dir, sub])) :
    t₁.Leads (Path.join [s.dir, sub]) := by
  refine hleads.congr h.named hsub.isName fun q hq hdir => ?_
  rwa [hcleaned.kept q (not_isEntryFile_of_isPrefix (hq.trans (List.prefix_append _ _)))]

/-- Below a directory that is emptied nothing is left. -/
theorem lookup_eq_none (hsub : IsSubName sub) (hempty : s.IsEmptied t sub) {rest : List String}
    (hrest : rest ≠ []) : t₁.entries.lookup (placeOf s.dir ++ [sub] ++ rest) = none := by
  rw [← FileTree.get?_of_standing?_eq_none (FileTree.standing?_append (hsub.standing? _) rest)]
  by_cases hgone : s.IsEntryFile t sub (placeOf s.dir ++ [sub] ++ rest)
  · exact hcleaned.gone _ hgone
  · rw [hcleaned.kept _ hgone, Option.eq_none_iff_forall_ne_some]
    exact fun e he => hgone (hempty.below rest e hrest he)

/-- A directory that is emptied is removed after its files. -/
theorem swept_of_isEmptied (h : s.IsProper) (hsub : IsSubName sub)
    (hleads : t.Leads (Path.join [s.dir, sub])) (hempty : s.IsEmptied t sub)
    (hcount : ∃ qs : List Place, qs.Nodup ∧ qs.length = n ∧
      ∀ q, q ∈ qs ↔ ∃ sub', sub' = sub ∧ s.IsEntryFile t sub' q) :
    ∃ t', t₁.remove (Path.join [s.dir, sub]) = .ok t' ∧ s.Swept (· = sub) t t' n := by
  have hplace := FileTree.placeOf_join h.named hsub.isName
  have hnone : ∀ rest, rest ≠ [] → t₁.entries.lookup (placeOf s.dir ++ [sub] ++ rest) = none :=
    fun _ hrest => hcleaned.lookup_eq_none hsub hempty hrest
  have hdirectory := hcleaned.get?_directory.trans hempty.directory
  refine ⟨_, FileTree.remove_of_empty (hcleaned.leads h hsub hleads) (by rwa [hplace])
    (by rwa [hplace]), ?_⟩
  rw [hplace]
  refine ⟨?_, fun q hq => ?_, hcount, hcleaned.tree.drop fun n => hnone [n] (List.cons_ne_nil _ _)⟩
  · rintro sub' q rfl hgoes
    rw [FileTree.get?_drop]
    split_ifs with hq
    · rw [hq]
      exact hsub.standing? _
    · exact hcleaned.gone q (hgoes.resolve_right fun hself => hq hself.1)
  · have hno := hq sub rfl
    rw [FileTree.get?_drop, if_neg fun heq => hno (Or.inr ⟨heq, hempty⟩),
      hcleaned.kept q fun hfile => hno (Or.inl hfile)]

/-- A directory with something else below it stays. -/
theorem swept_of_not_isEmptied (h : s.IsProper) (hsub : IsSubName sub)
    (hleads : t.Leads (Path.join [s.dir, sub]))
    (hdirectory : t.get? (placeOf s.dir ++ [sub]) = some .directory) (hempty : ¬ s.IsEmptied t sub)
    (hcount : ∃ qs : List Place, qs.Nodup ∧ qs.length = n ∧
      ∀ q, q ∈ qs ↔ ∃ sub', sub' = sub ∧ s.IsEntryFile t sub' q) :
    t₁.remove (Path.join [s.dir, sub]) = .error .notEmpty ∧ s.Swept (· = sub) t t₁ n := by
  have hplace := FileTree.placeOf_join h.named hsub.isName
  obtain ⟨rest, e, hrest, he, hother⟩ := exists_of_not_isEmptied hdirectory hempty
  have hleft : t₁.entries.lookup (placeOf s.dir ++ [sub] ++ rest) = some e := by
    rw [← FileTree.get?_of_standing?_eq_none (FileTree.standing?_append (hsub.standing? _) rest),
      hcleaned.kept _ hother, he]
  refine ⟨FileTree.remove_of_nonempty (hcleaned.leads h hsub hleads)
    (by rw [hplace, hcleaned.get?_directory, hdirectory]) hrest (by rwa [hplace]), ?_,
    fun q hq => hcleaned.kept q fun hfile => hq sub rfl (Or.inl hfile), hcount, hcleaned.tree⟩
  rintro sub' q rfl hgoes
  exact hcleaned.gone q (hgoes.resolve_right fun hself => hempty hself.2)

end Cleaned

/-- Clearing a directory and trying to remove it sweeps it. -/
theorem swept_of_list (h : s.IsProper) (ht : w.files.IsTree) (hsub : IsSubName sub)
    {entries : List (String × FileEntry)}
    (hlist : w.files.list (Path.join [s.dir, sub]) = .ok entries) :
    s.Swept (· = sub) w.files ((Effect.onFiles (·.remove (Path.join [s.dir, sub]))).run
      { w with files := withoutEntries w.files (Path.join [s.dir, sub]) entries }).2.files
      (entryNames entries).length := by
  obtain ⟨hleads, hdirectory, -⟩ := FileTree.of_list hlist
  rw [FileTree.placeOf_join h.named hsub.isName] at hdirectory
  have hcleaned := cleaned_withoutEntries h ht hsub hlist
  have hcount := count_of_list h ht hsub hlist
  by_cases hempty : s.IsEmptied w.files sub
  · obtain ⟨t', hremove, hswept⟩ := hcleaned.swept_of_isEmptied h hsub hleads hempty hcount
    rwa [Effect.onFiles_run_ok hremove]
  · obtain ⟨hremove, hswept⟩ :=
      hcleaned.swept_of_not_isEmptied h hsub hleads hdirectory hempty hcount
    rwa [Effect.onFiles_run_error hremove]

/-! ### All directories -/

theorem Swept.congr {p p' : String → Prop} (h : s.Swept p t t' n)
    (hp : ∀ sub q, s.Goes t sub q → (p sub ↔ p' sub)) : s.Swept p' t t' n := by
  obtain ⟨qs, hnodup, hlen, hmem⟩ := h.count
  refine ⟨fun sub q hsub hgoes => h.gone sub q ((hp sub q hgoes).2 hsub) hgoes, fun q hq => ?_,
    ⟨qs, hnodup, hlen, fun q => ?_⟩, h.tree⟩
  · exact h.kept q fun sub hsub hgoes => hq sub ((hp sub q hgoes).1 hsub) hgoes
  · rw [hmem]
    exact exists_congr fun sub => and_congr_left fun hfile => hp sub q (Or.inl hfile)

/-- Where nothing goes, nothing was swept. -/
theorem swept_refl (ht : t.IsTree) {p : String → Prop} (h : ∀ sub q, p sub → ¬ s.Goes t sub q) :
    s.Swept p t t 0 where
  gone sub q hsub hgoes := absurd hgoes (h sub q hsub)
  kept _ _ := rfl
  count := ⟨[], List.nodup_nil, rfl, fun q => by
    simp only [List.not_mem_nil, false_iff, not_exists, not_and]
    exact fun sub hsub hfile => h sub q hsub (Or.inl hfile)⟩
  tree := ht

/-- Clearing that goes well sweeps the listed directories, one after the other. -/
theorem swept_of_clearDirs (h : s.IsProper) (ht : w.files.IsTree)
    {dirs : List (String × FileEntry)} (hnodup : (dirs.map Prod.fst).Nodup)
    (hok : ((clearDirs s removed dirs).run w).1.2 = .ok ()) :
    ∃ n t', (clearDirs s removed dirs).run w = ((removed + n, .ok ()), { w with files := t' }) ∧
      s.Swept (fun sub => IsSubName sub ∧ (sub, .directory) ∈ dirs) w.files t' n := by
  induction dirs generalizing removed w with
  | nil => exact ⟨0, w.files, rfl, swept_refl ht fun sub q hsub => absurd hsub.2 List.not_mem_nil⟩
  | cons x dirs ih =>
    obtain ⟨sub, e⟩ := x
    rw [List.map_cons, List.nodup_cons] at hnodup
    have hfresh : ∀ e', (sub, e') ∉ dirs := fun e' hmem =>
      hnodup.1 (List.mem_map.2 ⟨_, hmem, rfl⟩)
    by_cases hpicked : e = .directory ∧ IsSubName sub
    · obtain ⟨rfl, hsub⟩ := hpicked
      have hne := Path.join_ne_empty h.named hsub.isName.piece.1
      obtain ⟨entries, hlist, hfiles, hrun⟩ := clearDirs_run_cons hsub hok
      have hfirst := swept_of_list h ht hsub hlist
      rw [hrun] at hok ⊢
      rw [clearFiles_run_of_ok hne hfiles] at hok ⊢
      generalize hw₁ : ((Effect.onFiles (·.remove (Path.join [s.dir, sub]))).run
        { w with files := withoutEntries w.files (Path.join [s.dir, sub]) entries }).2 = w₁ at *
      obtain ⟨n, t', hrest, hswept⟩ := ih hfirst.tree hnodup.2 hok
      have hsame : { w₁ with files := t' } = { w with files := t' } := by
        rw [← hw₁]
        exact Effect.onFiles_run_rest _ _ _
      refine ⟨(entryNames entries).length + n, t', ?_, (hfirst.trans hswept ?_).congr ?_⟩
      · rw [hrest, hsame, Nat.add_assoc]
      · rintro sub' rfl hsub'
        exact hfresh _ hsub'.2
      · intro sub' q _
        rw [List.mem_cons, Prod.mk.injEq, and_iff_left rfl, and_or_left]
        refine or_congr ⟨?_, And.right⟩ Iff.rfl
        rintro rfl
        exact ⟨hsub, rfl⟩
    · rw [clearDirs_cons_other hpicked] at hok ⊢
      obtain ⟨n, t', hrun, hswept⟩ := ih ht hnodup.2 hok
      refine ⟨n, t', hrun, hswept.congr fun sub' q _ => and_congr_right fun hsub' => ?_⟩
      rw [List.mem_cons, or_iff_right]
      rintro heq
      obtain ⟨rfl, rfl⟩ := Prod.mk.inj heq
      exact hpicked ⟨rfl, hsub'⟩

/-- Clearing that goes well sweeps all directories that are named as those of entries. -/
theorem swept_of_clear (h : s.IsProper) (ht : w.files.IsTree) (hok : s.Succeeds w .clear) :
    ∃ n t', s.clear.run w = ((n, .ok ()), { w with files := t' }) ∧
      s.Swept IsSubName w.files t' n := by
  obtain ⟨hok, hfound⟩ := hok
  unfold clear at hok ⊢
  rw [Effect.run_bind, Effect.get_run] at hok ⊢
  dsimp only at hok ⊢
  cases hdirs : w.files.list s.dir with
  | error e =>
    rw [hdirs] at hok
    cases e with
    | missing =>
      -- whatever goes has the directory of the store above it
      refine ⟨0, w.files, rfl, swept_refl ht fun sub q _ hgoes => ?_⟩
      have hroot := ht.rooted _ _ _ (directory_of_goes ht hgoes)
      exact (ht.stands hroot).list_clean_ne_missing (hfound hdirs)
    | _ => cases hok
  | ok dirs =>
    rw [hdirs] at hok
    dsimp only at hok ⊢
    obtain ⟨n, t', hrun, hswept⟩ := swept_of_clearDirs h ht (ht.nodup_of_list hdirs) hok
    rw [Nat.zero_add] at hrun
    refine ⟨n, t', hrun, hswept.congr fun sub q hgoes => ⟨And.left, fun hsub => ⟨hsub, ?_⟩⟩⟩
    rw [ht.mem_list_iff hdirs, ← FileTree.get?_of_standing?_eq_none (hsub.standing? _)]
    exact directory_of_goes ht hgoes

theorem Swept.shrinks {p : String → Prop} (hswept : s.Swept p t t' n) : t.Shrinks t' := by
  intro q e he
  by_cases hgoes : ∃ sub, p sub ∧ s.Goes t sub q
  · obtain ⟨sub, hsub, hgoes⟩ := hgoes
    rw [hswept.gone sub q hsub hgoes] at he
    cases he
  · rw [← hswept.kept q fun sub hsub hsgoes => hgoes ⟨sub, hsub, hsgoes⟩, he]

namespace Swept

variable (hswept : s.Swept IsSubName t t' n)

include hswept

theorem root : t'.get? (placeOf s.dir) = t.get? (placeOf s.dir) := by
  refine hswept.kept _ fun sub _ hgoes => ?_
  obtain ⟨rest, heq⟩ := exists_of_goes hgoes
  simpa using congrArg List.length heq

/-- No file named as an entry is left. -/
theorem not_isEntryFile (hsub : IsSubName sub) (q : Place) : ¬ s.IsEntryFile t' sub q := by
  rintro ⟨name, c, hname, rfl, hfile⟩
  have hgone := hswept.gone sub _ hsub
    (Or.inl ⟨name, c, hname, rfl, hswept.shrinks _ _ hfile⟩)
  rw [hgone] at hfile
  cases hfile

/-- Nothing is left to sweep. -/
theorem not_goes (hsub : IsSubName sub) (q : Place) : ¬ s.Goes t' sub q := by
  rintro (hfile | ⟨-, hdirectory, hbelow⟩)
  · exact hswept.not_isEntryFile hsub q hfile
  · -- what was below the directory would have gone with it
    have hempty : s.IsEmptied t sub := by
      refine ⟨hswept.shrinks _ _ hdirectory, fun rest e hrest he => ?_⟩
      by_contra hother
      refine hswept.not_isEntryFile hsub _ (hbelow rest e hrest ?_)
      rw [hswept.kept _ fun sub' _ hgoes => ?_, he]
      rcases hgoes with hfile | ⟨heq, -⟩
      · obtain ⟨name, -, -, heq, -⟩ := id hfile
        exact hother (sub_eq heq ▸ hfile)
      · have hlen := congrArg List.length heq
        have hpos := List.length_pos_iff.2 hrest
        simp only [List.length_append, List.length_singleton] at hlen
        omega
    rw [hswept.gone sub _ hsub (Or.inr ⟨rfl, hempty⟩)] at hdirectory
    cases hdirectory

end Swept

/-! ### Clearing again -/

theorem clearFiles_run_of_no_entry {entries : List (String × FileEntry)}
    (hno : ∀ name, name ∉ entryNames entries) (hcancelled : w.cancelled = false) :
    (clearFiles dir removed entries).run w = ((removed, .ok ()), w) := by
  induction entries with
  | nil => rfl
  | cons x entries ih =>
    obtain ⟨name, e⟩ := x
    have hskip : (e = .directory || !isEntryName name) = true := by
      by_contra hfile
      refine hno name (List.mem_map.2 ⟨(name, e), List.mem_filter.2 ⟨List.mem_cons_self, ?_⟩, rfl⟩)
      simpa using hfile
    rw [clearFiles, Effect.run_bind, Effect.get_run]
    dsimp only
    rw [if_neg (by simp [hcancelled]), if_pos hskip]
    refine ih fun other hother => hno other ?_
    obtain ⟨x, hx, rfl⟩ := List.mem_map.1 hother
    obtain ⟨hx, hfile⟩ := List.mem_filter.1 hx
    exact List.mem_map.2 ⟨x, List.mem_filter.2 ⟨List.mem_cons_of_mem _ hx, hfile⟩, rfl⟩

theorem clearDirs_run_of_not_goes (h : s.IsProper) (ht : w.files.IsTree)
    (hno : ∀ sub q, IsSubName sub → ¬ s.Goes w.files sub q) (hcancelled : w.cancelled = false)
    {dirs : List (String × FileEntry)} (hdirs : ∀ sub, IsSubName sub → (sub, .directory) ∈ dirs →
      w.files.Leads (Path.join [s.dir, sub]) ∧
        w.files.get? (placeOf s.dir ++ [sub]) = some .directory) :
    (clearDirs s removed dirs).run w = ((removed, .ok ()), w) := by
  induction dirs with
  | nil => rfl
  | cons x dirs ih =>
    have ih := ih fun sub hsub hmem => hdirs sub hsub (List.mem_cons_of_mem _ hmem)
    obtain ⟨sub, e⟩ := x
    by_cases hpicked : e = .directory ∧ IsSubName sub
    · obtain ⟨rfl, hsub⟩ := hpicked
      obtain ⟨hleads, hdirectory⟩ := hdirs sub hsub List.mem_cons_self
      have hplace := FileTree.placeOf_join h.named hsub.isName
      obtain ⟨entries, hlist⟩ := FileTree.list_of_leads hleads (hplace ▸ hdirectory)
      have hnames : ∀ name, name ∉ entryNames entries := by
        intro name hname
        obtain ⟨hname, c, hc⟩ := mem_entryNames_iff.1 hname
        rw [ht.mem_list_iff hlist, hplace,
          ← FileTree.get?_of_standing?_eq_none (hname.standing? _)] at hc
        exact hno sub _ hsub (Or.inl ⟨name, c, hname, rfl, hc⟩)
      -- what is left in the directory keeps it from being removed
      obtain ⟨rest, e, hrest, he, -⟩ := exists_of_not_isEmptied hdirectory fun hempty =>
        hno sub _ hsub (Or.inr ⟨rfl, hempty⟩)
      rw [FileTree.get?_of_standing?_eq_none (FileTree.standing?_append (hsub.standing? _) rest)]
        at he
      have hremove := FileTree.remove_of_nonempty hleads (hplace ▸ hdirectory) hrest
        (hplace ▸ he)
      rw [clearDirs, if_neg (by simp [hsub.digits]), Effect.run_bind, Effect.get_run]
      dsimp only
      rw [hlist]
      dsimp only
      rw [Effect.run_bind, clearFiles_run_of_no_entry hnames hcancelled]
      dsimp only
      rw [Effect.run_bind, Effect.onFiles_run_error hremove, ih]
    · rw [clearDirs_cons_other hpicked, ih]

/-- Directories that were swept can be reached. -/
theorem exists_leads_of_clearDirs {dirs : List (String × FileEntry)}
    (hok : ((clearDirs s removed dirs).run w).1.2 = .ok ()) :
    ∀ sub, IsSubName sub → (sub, .directory) ∈ dirs →
      ∃ t : FileTree, t.Leads (Path.join [s.dir, sub]) := by
  induction dirs generalizing removed w with
  | nil => exact fun sub _ hmem => absurd hmem List.not_mem_nil
  | cons x dirs ih =>
    obtain ⟨sub', e⟩ := x
    intro sub hsub hmem
    by_cases hpicked : e = .directory ∧ IsSubName sub'
    · obtain ⟨rfl, hsub'⟩ := hpicked
      obtain ⟨entries, hlist, -, hrun⟩ := clearDirs_run_cons hsub' hok
      rcases List.mem_cons.1 hmem with heq | hmem
      · obtain rfl := (Prod.mk.inj heq).1
        exact ⟨_, (FileTree.of_list hlist).1⟩
      · rw [hrun] at hok
        exact ih hok sub hsub hmem
    · rw [clearDirs_cons_other hpicked] at hok
      refine ih hok sub hsub ((List.mem_cons.1 hmem).resolve_left ?_)
      rintro ⟨⟩
      exact hpicked ⟨rfl, hsub⟩

namespace Swept

variable {dirs dirs' : List (String × FileEntry)} (hswept : s.Swept IsSubName t t' n)
  (hlist : t.list s.dir = .ok dirs)

include hswept hlist

/-- The sweep leaves the directory of the store, but maybe not all that its path goes through. -/
theorem list_again : t'.list s.dir = .error .missing ∨ ∃ dirs', t'.list s.dir = .ok dirs' := by
  obtain ⟨hleads, hroot, -⟩ := FileTree.of_list hlist
  have hway : ∀ before c after, FileTree.steps s.dir = before ++ c :: after → ∀ b,
      t'.get? (before.foldl FileTree.advance (FileTree.origin s.dir)) ≠ some (.file b) := by
    intro before c after hsteps b hb
    have hfile := hswept.shrinks _ _ hb
    rw [hleads.directories before c after hsteps] at hfile
    cases hfile
  exact FileTree.list_of_no_file hleads.legal hleads.names hway (hswept.root.trans hroot)

/-- A directory that is listed after the sweep was listed before, and is reached as it was then. -/
theorem leads_of_mem (h : s.IsProper) (ht : t.IsTree) (hlist' : t'.list s.dir = .ok dirs')
    (hreached : ∀ sub, IsSubName sub → (sub, .directory) ∈ dirs →
      ∃ t₀ : FileTree, t₀.Leads (Path.join [s.dir, sub]))
    (hsub : IsSubName sub) (hmem : (sub, .directory) ∈ dirs') :
    t'.Leads (Path.join [s.dir, sub]) ∧ t'.get? (placeOf s.dir ++ [sub]) = some .directory := by
  rw [hswept.tree.mem_list_iff hlist', ← FileTree.get?_of_standing?_eq_none (hsub.standing? _)]
    at hmem
  have hlisted : (sub, .directory) ∈ dirs := by
    rw [ht.mem_list_iff hlist, ← FileTree.get?_of_standing?_eq_none (hsub.standing? _)]
    exact hswept.shrinks _ _ hmem
  obtain ⟨t₀, hleads⟩ := hreached sub hsub hlisted
  obtain ⟨hlegal, -, hnames⟩ := (FileTree.leads_join_iff h.named hsub.isName).1 hleads
  have hroot := hswept.root.trans (FileTree.of_list hlist).2.1
  exact ⟨(FileTree.leads_join_iff h.named hsub.isName).2
    ⟨hlegal, hswept.tree.stands hroot, hnames⟩, hmem⟩

end Swept

/-- Clearing a second time finds nothing to do. -/
theorem clear_run_again (h : s.IsProper) (ht : w.files.IsTree) (hok : s.Succeeds w .clear)
    (hrun : s.clear.run w = ((n, .ok ()), { w with files := t' }))
    (hswept : s.Swept IsSubName w.files t' n) {w' : World} (hw' : w'.files = t')
    (hcancelled : w'.cancelled = false) : s.clear.run w' = ((0, .ok ()), w') := by
  subst hw'
  obtain ⟨hok, -⟩ := hok
  unfold clear at hok hrun ⊢
  rw [Effect.run_bind, Effect.get_run] at hok hrun ⊢
  dsimp only at hok hrun ⊢
  cases hdirs : w.files.list s.dir with
  | error e =>
    rw [hdirs] at hok hrun
    cases e with
    | missing =>
      have hsame : w.files = w'.files := congrArg (fun x => x.2.files) hrun
      rw [← hsame, hdirs]
      rfl
    | _ => cases hok
  | ok dirs =>
    rw [hdirs] at hok
    rcases hswept.list_again hdirs with hmissing | ⟨dirs', hdirs'⟩
    · rw [hmissing]
      rfl
    · rw [hdirs']
      exact clearDirs_run_of_not_goes h hswept.tree (fun sub q hsub => hswept.not_goes hsub q)
        hcancelled fun sub hsub hmem =>
          hswept.leads_of_mem hdirs h ht hdirs' (exists_leads_of_clearDirs hok) hsub hmem

/-! ### Reading after clearing -/

/-- Nothing but a file of the key's own could keep its file from being made. -/
structure IsUnbarred (s : FileStore) (t : FileTree) (key : String) : Prop where
  legal : FileTree.checkPath (s.entryPath key) = .ok ()
  names : ∀ c ∈ FileTree.steps (s.entryPath key), FileTree.nameFits c = true
  way : ∀ q, q <+: placeOf (s.entryDir key) → ∀ c, t.get? q ≠ some (.file c)
  place : t.get? (s.entryPlace key) ≠ some .directory

variable {key : String}

/-- Where nothing bars the way, a file is there or reading finds nothing. -/
theorem IsUnbarred.read_eq (h : s.IsProper) (hfree : s.IsUnbarred t key)
    (hno : ∀ c, t.get? (s.entryPlace key) ≠ some (.file c)) :
    t.read (s.entryPath key) = .error .missing := by
  obtain ⟨hne, -⟩ := h.entryDir_eq key
  refine FileTree.read_eq_missing_of_no_file hfree.legal hfree.names ?_ ?_
  · intro before c after hsteps
    rw [h.entryPath_eq, FileTree.steps_join hne (h.isEntryName key).isName] at hsteps
    have hbefore : before.reverse <:+ Path.trail (s.entryDir key) := by
      rw [← List.reverse_prefix, List.reverse_reverse]
      refine List.prefix_of_prefix_length_le ⟨c :: after, hsteps.symm⟩ (List.prefix_append _ _) ?_
      have hlen := congrArg List.length hsteps
      simp only [List.length_append, List.length_cons, List.length_nil] at hlen
      omega
    have horigin : FileTree.origin (s.entryPath key) = FileTree.origin (s.entryDir key) := by
      rw [FileTree.origin_eq, FileTree.origin_eq, h.entryPath_eq,
        Path.isAbsolute_join hne (h.isEntryName key).isName]
    have hplace := FileTree.foldl_reverse_suffix hbefore
    rw [List.reverse_reverse] at hplace
    rw [horigin, hplace]
    exact hfree.way _ (FileTree.lay_prefix_placeOf hbefore)
  · rw [h.placeOf_entryPath]
    cases he : t.get? (s.entryPlace key) with
    | none => rfl
    | some e =>
      cases e with
      | file c => exact absurd he (hno c)
      | directory => exact absurd he hfree.place

/-! ### The whole -/

/-- The place of a file named as an entry, in a directory named as those of entries. -/
def IsEntryPlace (s : FileStore) (q : Place) : Prop :=
  ∃ sub name, IsSubName sub ∧ IsEntryName name ∧ q = placeOf s.dir ++ [sub] ++ [name]

/-- Of the files exactly those at the places of entries are gone, `n` of them, and of the
directories none but such as are named as those of entries, with nothing left in them. -/
structure Purged (s : FileStore) (t t' : FileTree) (n : ℕ) : Prop where
  entries : ∀ q c, s.IsEntryPlace q → t.get? q = some (.file c) → t'.get? q = none
  others : ∀ q c, ¬ s.IsEntryPlace q → t.get? q = some (.file c) → t'.get? q = some (.file c)
  count : ∃ qs : List Place, qs.Nodup ∧ qs.length = n ∧
    ∀ q, q ∈ qs ↔ s.IsEntryPlace q ∧ ∃ c, t.get? q = some (.file c)
  directories : ∀ q, t.get? q = some .directory → t'.get? q = some .directory ∨
    (∃ sub, IsSubName sub ∧ q = placeOf s.dir ++ [sub]) ∧ ∀ rest, t'.get? (q ++ rest) = none
  root : t'.get? (placeOf s.dir) = t.get? (placeOf s.dir)
  nothingNew : t.Shrinks t'

theorem isEntryFile_iff : (∃ sub, IsSubName sub ∧ s.IsEntryFile t sub q) ↔
    s.IsEntryPlace q ∧ ∃ c, t.get? q = some (.file c) := by
  constructor
  · rintro ⟨sub, hsub, name, c, hname, hq, hfile⟩
    exact ⟨⟨sub, name, hsub, hname, hq⟩, c, hfile⟩
  · rintro ⟨⟨sub, name, hsub, hname, hq⟩, c, hfile⟩
    exact ⟨sub, hsub, name, c, hname, hq, hfile⟩

theorem Swept.purged (h : s.Swept IsSubName t t' n) : s.Purged t t' n where
  entries q c hq hfile := by
    obtain ⟨sub, hsub, hentry⟩ := isEntryFile_iff.2 ⟨hq, c, hfile⟩
    exact h.gone sub q hsub (Or.inl hentry)
  others q c hq hfile := by
    rw [h.kept q fun sub hsub hgoes => ?_, hfile]
    rcases hgoes with hentry | ⟨rfl, hempty⟩
    · exact hq (isEntryFile_iff.1 ⟨sub, hsub, hentry⟩).1
    · rw [hempty.directory] at hfile
      cases hfile
  count := by
    obtain ⟨qs, hnodup, hlen, hmem⟩ := h.count
    exact ⟨qs, hnodup, hlen, fun q => (hmem q).trans isEntryFile_iff⟩
  directories q hq := by
    by_cases hgoes : ∃ sub, IsSubName sub ∧ s.Goes t sub q
    · right
      obtain ⟨sub, hsub, hgoes⟩ := hgoes
      have hgone := h.gone sub q hsub hgoes
      rcases hgoes with ⟨_, _, -, -, hfile⟩ | ⟨rfl, -⟩
      · rw [hfile] at hq
        cases hq
      · refine ⟨⟨sub, hsub, rfl⟩, fun rest => ?_⟩
        -- what is left somewhere is left in a directory
        rw [Option.eq_none_iff_forall_ne_some]
        intro e he
        by_cases hrest : rest = []
        · rw [hrest, List.append_nil, hgone] at he
          cases he
        · rw [h.tree.above hrest he] at hgone
          cases hgone
    · left
      rw [h.kept q fun sub hsub hsgoes => hgoes ⟨sub, hsub, hsgoes⟩, hq]
  root := h.root
  nothingNew := h.shrinks

/-- The file of a key is at the place of an entry. -/
theorem IsProper.isEntryPlace (h : s.IsProper) (key : String) :
    s.IsEntryPlace (s.entryPlace key) :=
  ⟨s.subName key, s.fileName key, h.isSubName key, h.isEntryName key, rfl⟩

/-- Clearing that goes well removes the files at the places of entries and counts them. It leaves
the content of all other files alone and removes no directories but emptied ones that are named as
those of entries. The path of every key is that of an entry, so reading finds nothing after it: it
misses, unless the path of the key cannot be read for another reason. Clearing again changes nothing
and counts nothing. -/
theorem clear_removes_entries (s : FileStore) (h : s.IsProper) (w : World) (ht : w.files.IsTree)
    (hok : s.Succeeds w .clear) :
    (∃ n t', s.clear.run w = ((n, .ok ()), { w with files := t' }) ∧ s.Purged w.files t' n ∧
      (∀ key (w' : World), w'.files = t' →
        (∃ e, t'.read (s.entryPath key) = .error e ∧ (s.get key).run w' =
          (if e = .missing then .ok none else .error (e.readFault (s.entryPath key)), w')) ∧
        (s.IsUnbarred t' key → (s.get key).run w' = (.ok none, w'))) ∧
      ∀ w' : World, w'.files = t' → w'.cancelled = false →
        s.clear.run w' = ((0, .ok ()), w')) ∧
    ∀ key, ∃ sub name, IsSubName sub ∧ IsEntryName name ∧
      s.entryPath key = Path.join [s.dir, sub, name] := by
  refine ⟨?_, fun key => ⟨_, _, h.isSubName key, h.isEntryName key, rfl⟩⟩
  obtain ⟨n, t', hrun, hswept⟩ := swept_of_clear h ht hok
  have hpurged := hswept.purged
  have hno : ∀ key c, t'.get? (s.entryPlace key) ≠ some (.file c) := by
    intro key c hfile
    rw [hpurged.entries _ c (h.isEntryPlace key) (hpurged.nothingNew _ _ hfile)] at hfile
    cases hfile
  refine ⟨n, t', hrun, hpurged, ?_, fun w' => clear_run_again h ht hok hrun hswept⟩
  rintro key w' rfl
  constructor
  · cases hread : w'.files.read (s.entryPath key) with
    | error e => exact ⟨e, rfl, get_run_of_error hread⟩
    | ok bytes =>
      refine absurd (FileTree.read_eq_ok_iff.1 hread).2 ?_
      rw [h.placeOf_entryPath]
      exact hno key bytes
  · intro hfree
    rw [get_run_of_error (hfree.read_eq h (hno key)), if_pos rfl]

/-- A store in the directory `c` with the hash in use. -/
def hashed : FileStore := ⟨"c", Sha256.hex⟩

theorem isProper_hashed : hashed.IsProper := isProper_hex (by decide)

/-- A store with one entry, beside a file of someone else. -/
def single : World where
  files := ⟨[(["c"], .directory), (["c", "ab"], .directory),
    (["c", "ab", String.ofList (List.replicate 62 '0') ++ ".json"], .file .empty),
    (["readme"], .file .empty)]⟩

/-- What is left of it. -/
def kept : FileTree := ⟨[(["c"], .directory), (["readme"], .file .empty)]⟩

theorem entryDir_a : hashed.entryDir "a" = "c/ca" ∧ hashed.entryPath "a" =
    "c/ca/978112ca1bbdcafac231b39a23dc4da786eff8147c4e72b9807785afee48bb.json" := by
  have hhash : Sha256.hex "a".toUTF8 =
      "ca978112ca1bbdcafac231b39a23dc4da786eff8147c4e72b9807785afee48bb" := by decide +kernel
  unfold entryDir entryPath hashed
  dsimp only
  rw [hhash]
  decide +kernel

theorem isUnbarred_kept : hashed.IsUnbarred kept "a" := by
  obtain ⟨hdir, hpath⟩ := entryDir_a
  constructor
  case legal =>
    rw [hpath]
    decide +kernel
  case names =>
    rw [hpath]
    decide +kernel
  case way =>
    intro q hq c hfile
    have hdirectory : ∀ q ∈ (placeOf "c/ca").inits,
        kept.get? q = some .directory ∨ kept.get? q = none := by decide +kernel
    rw [hdir] at hq
    rcases hdirectory q ((List.mem_inits _ _).2 hq) with h | h
    · rw [h] at hfile
      cases hfile
    · rw [h] at hfile
      cases hfile
  case place =>
    rw [← isProper_hashed.placeOf_entryPath, hpath]
    decide +kernel

theorem clear_removes_entries_of_single :
    hashed.IsProper ∧ single.files.IsTree ∧ hashed.Succeeds single .clear ∧
    ∃ t', hashed.clear.run single = ((1, .ok ()), { single with files := t' }) ∧
      hashed.Purged single.files t' 1 ∧ hashed.IsUnbarred t' "a" ∧
      (hashed.get "a").run { single with files := t' } =
        (.ok none, { single with files := t' }) ∧
      hashed.clear.run { single with files := t' } =
        ((0, .ok ()), { single with files := t' }) := by
  have htree : single.files.IsTree := by decide +kernel
  have hdone : (hashed.clear.run single).1 = (1, .ok ()) ∧
      (hashed.clear.run single).2.files = kept := by decide +kernel
  have hok : hashed.Succeeds single .clear :=
    ⟨by rw [hdone.1], fun h => absurd h (by decide +kernel)⟩
  obtain ⟨⟨n, t', hrun, hpurged, hget, hagain⟩, -⟩ :=
    clear_removes_entries hashed isProper_hashed single htree hok
  obtain ⟨hcount, rfl⟩ : n = 1 ∧ t' = kept := by
    rw [hrun] at hdone
    exact ⟨congrArg Prod.fst hdone.1, hdone.2⟩
  subst hcount
  exact ⟨isProper_hashed, htree, hok, kept, hrun, hpurged, isUnbarred_kept,
    (hget "a" { single with files := kept } rfl).2 isUnbarred_kept,
    hagain { single with files := kept } rfl rfl⟩

/-- A directory in place of the entry of the key `k`. -/
def barred : World where
  files := ⟨[(["c"], .directory), (["c", "82"], .directory),
    (["c", "82", "54c329a92850f6d539dd376f4816ee2764517da5e0235514af433164480d7a.json"],
      .directory)]⟩

/-- Clearing leaves directories alone, whatever their names, and reading one fails. -/
theorem get_fails_after_clear : ¬ ∀ (s : FileStore) (w : World) (key : String), s.IsProper →
    w.files.IsTree → s.Succeeds w .clear → ((s.get key).run (s.clear.run w).2).1 = .ok none := by
  intro hmisses
  have hdone : (hashed.clear.run barred).1 = (0, .ok ()) ∧
      (hashed.clear.run barred).2.files = barred.files := by decide +kernel
  have hok : hashed.Succeeds barred .clear :=
    ⟨by rw [hdone.1], fun h => absurd h (by decide +kernel)⟩
  have hhash : Sha256.hex "k".toUTF8 =
      "8254c329a92850f6d539dd376f4816ee2764517da5e0235514af433164480d7a" := by decide +kernel
  have hpath : hashed.entryPath "k" =
      "c/82/54c329a92850f6d539dd376f4816ee2764517da5e0235514af433164480d7a.json" := by
    unfold entryPath hashed
    dsimp only
    rw [hhash]
    decide +kernel
  have hread : (hashed.clear.run barred).2.files.read (hashed.entryPath "k") =
      .error .isDirectory := by
    rw [hdone.2, hpath]
    decide +kernel
  have hmiss := hmisses hashed barred "k" isProper_hashed (by decide +kernel) hok
  rw [get_run_of_error hread] at hmiss
  cases hmiss

end FileStore
end Cache
end ApiDiagrams
