import ApiDiagrams.Proofs.Files.Removal

/-!
# Trees as an operating system keeps them

In a tree that came about by operations, each place is taken once, and whatever stands somewhere
stands in a directory. In such a tree a directory is listed exactly, and it can be removed as soon
as nothing is left below it.

* `IsTree`, `isTree_iff`: each place is taken once, below a directory;
* `IsTree.put`, `IsTree.drop`: the two changes that operations are made of;
* `IsTree.populate`, `IsTree.remove`, `IsTree.rename`: operations keep a tree one;
* `IsTree.mem_of_list`: what a list of a directory holds;
* `remove_directory`, `read_eq_missing_of_free`: when removing and reading fail.
-/

namespace ApiDiagrams
namespace FileTree

/-- Each place is taken once, and whatever stands somewhere stands in a directory. -/
structure IsTree (t : FileTree) : Prop where
  nodup : (t.entries.map Prod.fst).Nodup
  rooted : ∀ p n e, t.get? (p ++ [n]) = some e → t.get? p = some .directory

variable {t t' : FileTree} {p q : Place} {e : FileEntry} {path n : String}

/-! ### Places that always stand -/

theorem get?_of_standing? (h : standing? p = some e) (t : FileTree) : t.get? p = some e := by
  rw [get?, h, Option.some_or]

theorem get?_nil (t : FileTree) : t.get? [] = some .directory := get?_of_standing? rfl t

theorem get?_root (t : FileTree) : t.get? root = some .directory := get?_of_standing? rfl t

/-- What always stands stands in a directory that always stands. -/
theorem standing?_of_concat (h : standing? (p ++ [n]) = some e) :
    standing? p = some .directory := by
  have hfront : ∀ {q : Place}, p ++ [n] = q → p = q.dropLast := by
    rintro q rfl
    rw [List.dropLast_concat]
  unfold standing? at h
  split_ifs at h with hdirectory hnull
  · simp only [Bool.or_eq_true, decide_eq_true_eq] at hdirectory
    obtain ((hdots | hroot) | hdev) | htmp := hdirectory
    · rw [List.all_append, Bool.and_eq_true] at hdots
      unfold standing?
      rw [hdots.1]
      rfl
    · rw [hfront hroot]
      rfl
    · rw [hfront hdev]
      rfl
    · rw [hfront htmp]
      rfl
  · rw [hfront hnull]
    rfl

/-- Nothing always stands below a place that does not. -/
theorem standing?_append (h : standing? p = none) (rest : List String) :
    standing? (p ++ rest) = none := by
  induction rest using List.reverseRecOn with
  | nil => rwa [List.append_nil]
  | append_singleton rest n ih =>
    rw [← List.append_assoc, Option.eq_none_iff_forall_ne_some]
    intro e he
    rw [standing?_of_concat he] at ih
    cases ih

theorem get?_of_standing?_eq_none (h : standing? p = none) : t.get? p = t.entries.lookup p := by
  rw [get?, h, Option.none_or]

namespace IsTree

/-! ### What stands above a place -/

theorem above (h : t.IsTree) {rest : List String} (hrest : rest ≠ [])
    (he : t.get? (p ++ rest) = some e) : t.get? p = some .directory := by
  induction rest using List.reverseRecOn generalizing e with
  | nil => exact absurd rfl hrest
  | append_singleton rest n ih =>
    rw [← List.append_assoc] at he
    have hdirectory := h.rooted _ _ _ he
    by_cases hnil : rest = []
    · rwa [hnil, List.append_nil] at hdirectory
    · exact ih hnil hdirectory

theorem directory_of_prefix (h : t.IsTree) (hqp : q <+: p) (hp : t.get? p = some .directory) :
    t.get? q = some .directory := by
  obtain ⟨rest, rfl⟩ := hqp
  by_cases hrest : rest = []
  · rwa [hrest, List.append_nil] at hp
  · exact h.above hrest hp

/-- A path that can be followed leads to a place in a directory. -/
theorem directory_of_follow (h : t.IsTree) {cs : List String}
    (hf : t.follow (origin path) cs = .ok (p ++ [n])) : t.get? p = some .directory := by
  obtain ⟨hplace, hway⟩ := follow_eq_ok_iff.1 hf
  cases cs using List.reverseRecOn with
  | nil =>
    -- the place is where the path starts
    unfold origin at hplace
    refine h.rooted p n .directory ?_
    rw [hplace, List.foldl_nil]
    split_ifs
    · exact get?_root t
    · exact get?_nil t
  | append_singleton before c =>
    have hlast := (hway before c [] rfl).1
    rw [List.foldl_append, List.foldl_cons, List.foldl_nil] at hplace
    generalize before.foldl advance (origin path) = x at hplace hlast
    unfold advance at hplace
    split_ifs at hplace with _ _ _ hdots
    · exact h.rooted p n _ (hplace ▸ hlast)
    · exact h.rooted p n _ (hplace ▸ hlast)
    · refine h.rooted p n .directory (get?_of_standing? ?_ t)
      have hall : (p ++ [n]).all (· == "..") = true := by
        rw [hplace, List.all_cons, hdots]
        rfl
      rw [standing?, hall]
      rfl
    · refine h.rooted p n .directory ?_
      rw [hplace]
      exact h.directory_of_prefix (List.dropLast_prefix x) hlast
    · rwa [(List.append_inj' hplace rfl).1]

theorem directory_of_leads (h : t.IsTree) (hl : t.Leads path) (hp : placeOf path = p ++ [n]) :
    t.get? p = some .directory := by
  have hlocate := locate_eq_ok_iff.2 ⟨hl, rfl⟩
  unfold locate at hlocate
  obtain ⟨-, -, hfollow⟩ := bind_eq_ok_iff.1 hlocate
  rw [hp] at hfollow
  exact h.directory_of_follow hfollow

/-! ### Changes -/

/-- Putting something where no directory stands, into a directory. -/
theorem put (h : t.IsTree) (hfree : t.get? p ≠ some .directory)
    (habove : ∀ q n, p = q ++ [n] → t.get? q = some .directory) : (t.put p e).IsTree := by
  refine ⟨?_, fun q n e' he => ?_⟩
  · unfold FileTree.put
    split_ifs with hsome
    · convert h.nodup using 1
      rw [List.map_map]
      refine List.map_congr_left fun x _ => ?_
      dsimp only [Function.comp_apply]
      split_ifs <;> rfl
    · rw [List.map_append, List.nodup_append]
      refine ⟨h.nodup, List.nodup_singleton p, ?_⟩
      rintro _ hx y hy rfl
      obtain ⟨⟨k, e'⟩, hmem, rfl⟩ := List.mem_map.1 hx
      obtain rfl := List.mem_singleton.1 hy
      rw [Option.not_isSome_iff_eq_none, List.lookup_eq_none_iff] at hsome
      simpa using hsome _ hmem
  · rw [get?_put] at he ⊢
    split_ifs at he with hq
    · have hne : q ≠ p := by
        rintro rfl
        simpa using congrArg List.length hq.1
      rw [if_neg fun hq' => hne hq'.1]
      exact habove q n hq.1.symm
    · have hdirectory := h.rooted q n e' he
      rwa [if_neg fun hq' : q = p ∧ _ => hfree (hq'.1 ▸ hdirectory)]

/-- Taking away something with nothing below it. -/
theorem drop (h : t.IsTree) (hleaf : ∀ n, t.entries.lookup (p ++ [n]) = none) :
    (t.drop p).IsTree := by
  refine ⟨h.nodup.sublist (List.filter_sublist.map Prod.fst), fun q n e he => ?_⟩
  cases hs : standing? (q ++ [n]) with
  | some e' => exact get?_of_standing? (standing?_of_concat hs) _
  | none =>
    have hold := shrinks_drop t p _ _ he
    have hne : q ≠ p := by
      rintro rfl
      rw [get?_of_standing?_eq_none hs, hleaf n] at hold
      cases hold
    rw [get?_drop, if_neg hne]
    exact h.rooted q n e hold

/-- Nothing stands below a file. -/
theorem leaf_of_file (h : t.IsTree) {c : ByteArray} (hfile : t.get? p = some (.file c))
    (n : String) : t.entries.lookup (p ++ [n]) = none := by
  rw [Option.eq_none_iff_forall_ne_some]
  intro e he
  have hsome : ((standing? (p ++ [n])).or (t.entries.lookup (p ++ [n]))).isSome = true := by
    rw [he]
    cases standing? (p ++ [n]) <;> rfl
  obtain ⟨e', he'⟩ := Option.isSome_iff_exists.1 hsome
  rw [h.rooted p n e' he'] at hfile
  cases hfile

theorem write (h : t.IsTree) {c : ByteArray} (hwrite : t.write path c = .ok t') : t'.IsTree := by
  obtain ⟨⟨hl, hfree⟩, rfl⟩ := write_eq_ok_iff.1 hwrite
  exact h.put hfree fun q n hq => h.directory_of_leads hl hq

theorem makeDir (h : t.IsTree) (hmake : t.makeDir path = .ok t') : t'.IsTree := by
  unfold FileTree.makeDir at hmake
  obtain ⟨-, -, hmake⟩ := bind_eq_ok_iff.1 hmake
  obtain ⟨p, hp, hmake⟩ := bind_eq_ok_iff.1 hmake
  split_ifs at hmake with hsome
  obtain rfl := Except.ok.inj hmake
  refine h.put (fun hdirectory => hsome ?_) fun q n hq => h.directory_of_follow (hq ▸ hp)
  rw [hdirectory]
  rfl

theorem makeEach (h : t.IsTree) (paths : List String) : (t.makeEach paths).1.IsTree := by
  induction paths generalizing t with
  | nil => exact h
  | cons path paths ih =>
    unfold FileTree.makeEach
    split
    next => exact ih h
    next => exact h
    next =>
      split
      next hmake => exact ih (h.makeDir hmake)
      next => exact h

theorem makeDirs (h : t.IsTree) (path : String) : (t.makeDirs path).1.IsTree := by
  unfold FileTree.makeDirs
  split_ifs
  · exact h
  · exact h.makeEach _

theorem rename (h : t.IsTree) {source target : String} (hmove : t.rename source target = .ok t') :
    t'.IsTree := by
  obtain ⟨c, hread, ⟨hl, hfree⟩, rfl⟩ := rename_eq_ok_iff.1 hmove
  have hfile := (read_eq_ok_iff.1 hread).2
  have hdropped : ∀ {q}, (t.drop (placeOf source)).get? q = some .directory ↔
      t.get? q = some .directory := by
    intro q
    rw [get?_drop]
    split_ifs with hq
    · subst hq
      constructor
      · exact fun hs => get?_of_standing? hs t
      · intro hd
        rw [hfile] at hd
        cases hd
    · exact Iff.rfl
  exact (h.drop fun n => h.leaf_of_file hfile n).put (mt hdropped.1 hfree) fun q n hq =>
    hdropped.2 (h.directory_of_leads hl hq)

theorem remove (h : t.IsTree) (hremove : t.remove path = .ok t') : t'.IsTree := by
  obtain ⟨-, rfl⟩ := eq_drop_of_remove hremove
  refine h.drop fun n => ?_
  unfold FileTree.remove at hremove
  obtain ⟨p, hp, hremove⟩ := bind_eq_ok_iff.1 hremove
  obtain ⟨-, rfl⟩ := locate_eq_ok_iff.1 hp
  split at hremove
  next => cases hremove
  next hfile => exact h.leaf_of_file hfile n
  next =>
    split_ifs at hremove with hany
    rw [List.lookup_eq_none_iff]
    intro x hx
    by_contra hkey
    refine hany (List.any_eq_true.2 ⟨x, hx, ?_⟩)
    have hkey : placeOf path ++ [n] = x.1 := by simpa using hkey
    simp [← hkey]

theorem populate (h : t.IsTree) (files : List (String × ByteArray)) : (t.populate files).IsTree := by
  unfold FileTree.populate
  induction files generalizing t with
  | nil => exact h
  | cons file files ih =>
    refine ih ?_
    dsimp only
    split_ifs
    · exact h.makeDirs _
    · have hmade := h.makeDirs (Path.dir file.1)
      cases hwrite : ((t.makeDirs (Path.dir file.1)).1.write file.1 file.2) with
      | error e => exact hmade
      | ok t' => exact hmade.write hwrite

end IsTree

/-- Whatever a tree has an entry for stands somewhere. -/
theorem isSome_get?_of_mem {x : Place × FileEntry} (hx : x ∈ t.entries) :
    (t.get? x.1).isSome = true := by
  have hlookup : (t.entries.lookup x.1).isSome = true := by
    rw [Option.isSome_iff_ne_none, Ne, List.lookup_eq_none_iff]
    exact fun hnone => by simpa using hnone x hx
  unfold get?
  cases standing? x.1 with
  | none => exact hlookup
  | some e => rfl

/-- It is enough to look at the entries. -/
theorem isTree_iff : t.IsTree ↔ (t.entries.map Prod.fst).Nodup ∧
    ∀ x ∈ t.entries, t.get? x.1.dropLast = some .directory := by
  constructor
  · intro h
    refine ⟨h.nodup, fun x hx => ?_⟩
    obtain ⟨e, he⟩ := Option.isSome_iff_exists.1 (isSome_get?_of_mem hx)
    rcases List.eq_nil_or_concat x.1 with hnil | ⟨p, n, hconcat⟩
    · rw [hnil]
      exact get?_nil t
    · rw [hconcat, List.concat_eq_append] at he ⊢
      rw [List.dropLast_concat]
      exact h.rooted p n e he
  · rintro ⟨hnodup, hrooted⟩
    refine ⟨hnodup, fun p n e he => ?_⟩
    cases hs : standing? (p ++ [n]) with
    | some e' => exact get?_of_standing? (standing?_of_concat hs) t
    | none =>
      rw [get?_of_standing?_eq_none hs] at he
      obtain ⟨before, after, hentries, -⟩ := List.lookup_eq_some_iff.1 he
      have hdirectory := hrooted (p ++ [n], e) (by rw [hentries]; simp)
      rwa [List.dropLast_concat] at hdirectory

instance (t : FileTree) : Decidable t.IsTree := decidable_of_iff' _ isTree_iff

/-! ### Listing -/

theorem lookup_eq_some_iff_mem {l : List (Place × FileEntry)} (hnodup : (l.map Prod.fst).Nodup) :
    l.lookup p = some e ↔ (p, e) ∈ l := by
  induction l with
  | nil => simp
  | cons x l ih =>
    obtain ⟨k, e'⟩ := x
    rw [List.map_cons, List.nodup_cons] at hnodup
    rw [List.lookup_cons, List.mem_cons, Prod.mk.injEq]
    by_cases hk : p = k
    · subst hk
      have hno : (p, e) ∉ l := fun hmem => hnodup.1 (List.mem_map.2 ⟨_, hmem, rfl⟩)
      simp [hno, eq_comm]
    · simp [beq_eq_false_iff_ne.2 hk, hk, ih hnodup.2]

/-- What a list of a directory makes of an entry of the tree. -/
def inside? (p : Place) (x : Place × FileEntry) : Option (String × FileEntry) :=
  if p.isPrefixOf x.1 && x.1.length == p.length + 1 then some (x.1.getLastD "", x.2) else none

theorem inside?_eq_some_iff {x : Place × FileEntry} :
    inside? p x = some (n, e) ↔ x = (p ++ [n], e) := by
  obtain ⟨k, e'⟩ := x
  unfold inside?
  rw [Option.ite_none_right_eq_some, Option.some.injEq, Prod.mk.injEq, Bool.and_eq_true,
    List.isPrefixOf_iff_prefix, beq_iff_eq, Prod.mk.injEq]
  constructor
  · rintro ⟨⟨⟨rest, rfl⟩, hlen⟩, rfl, rfl⟩
    obtain ⟨n, rfl⟩ := List.length_eq_one_iff.1 (by simpa using hlen)
    simp
  · rintro ⟨rfl, rfl⟩
    simp

/-- A directory that can be listed is one, and can be reached. -/
theorem of_list {entries : List (String × FileEntry)} (h : t.list path = .ok entries) :
    t.Leads path ∧ t.get? (placeOf path) = some .directory ∧
      entries.Perm (t.entries.filterMap (inside? (placeOf path))) := by
  unfold list at h
  obtain ⟨p, hp, h⟩ := bind_eq_ok_iff.1 h
  obtain ⟨hl, rfl⟩ := locate_eq_ok_iff.1 hp
  split at h
  next hdirectory =>
    obtain rfl := Except.ok.inj h
    exact ⟨hl, hdirectory, List.mergeSort_perm _ _⟩
  next => cases h
  next => cases h

namespace IsTree

variable {entries : List (String × FileEntry)}

/-- A directory is listed exactly. -/
theorem mem_list_iff (h : t.IsTree) (hlist : t.list path = .ok entries) :
    (n, e) ∈ entries ↔ t.entries.lookup (placeOf path ++ [n]) = some e := by
  rw [(of_list hlist).2.2.mem_iff, List.mem_filterMap, lookup_eq_some_iff_mem h.nodup]
  simp only [inside?_eq_some_iff, exists_eq_right]

/-- No name is listed twice. -/
theorem nodup_of_list (h : t.IsTree) (hlist : t.list path = .ok entries) :
    (entries.map Prod.fst).Nodup := by
  rw [((of_list hlist).2.2.map Prod.fst).nodup_iff, List.Nodup, List.pairwise_map]
  refine (List.pairwise_map.1 h.nodup).filterMap _ ?_
  rintro x y hne ⟨n, e⟩ hx ⟨n', e'⟩ hy hnames
  obtain rfl := inside?_eq_some_iff.1 hx
  obtain rfl := inside?_eq_some_iff.1 hy
  exact hne (congrArg (placeOf path ++ [·]) hnames)

theorem stands (h : t.IsTree) (hd : t.get? (placeOf path) = some .directory) : t.Stands path :=
  fun _ hrest => h.directory_of_prefix (lay_prefix_placeOf hrest) hd

end IsTree

/-! ### Reasons to fail -/

/-- A directory with nothing below it is removed. -/
theorem remove_of_empty (hl : t.Leads path) (hd : t.get? (placeOf path) = some .directory)
    (hempty : ∀ rest, rest ≠ [] → t.entries.lookup (placeOf path ++ rest) = none) :
    t.remove path = .ok (t.drop (placeOf path)) := by
  unfold remove
  refine bind_eq_ok_iff.2 ⟨_, locate_eq_ok_iff.2 ⟨hl, rfl⟩, ?_⟩
  rw [hd]
  dsimp only
  refine if_neg fun hany => ?_
  obtain ⟨⟨q, e⟩, hmem, hq⟩ := List.any_eq_true.1 hany
  rw [Bool.and_eq_true, decide_eq_true_eq, List.isPrefixOf_iff_prefix] at hq
  obtain ⟨hne, rest, rfl⟩ := hq
  have hrest : rest ≠ [] := by
    rintro rfl
    exact hne (List.append_nil _)
  have hkey := List.lookup_eq_none_iff.1 (hempty rest hrest) _ hmem
  simp at hkey

/-- A directory with something below it is not removed. -/
theorem remove_of_nonempty (hl : t.Leads path) (hd : t.get? (placeOf path) = some .directory)
    {rest : List String} (hrest : rest ≠ [])
    (hbelow : t.entries.lookup (placeOf path ++ rest) = some e) :
    t.remove path = .error .notEmpty := by
  unfold remove
  refine bind_eq_error_iff.2 (Or.inr ⟨_, locate_eq_ok_iff.2 ⟨hl, rfl⟩, ?_⟩)
  rw [hd]
  dsimp only
  obtain ⟨before, after, hentries, -⟩ := List.lookup_eq_some_iff.1 hbelow
  refine if_pos (List.any_eq_true.2 ⟨(placeOf path ++ rest, e), by rw [hentries]; simp, ?_⟩)
  have hfront : (placeOf path).isPrefixOf (placeOf path ++ rest) = true :=
    List.isPrefixOf_iff_prefix.2 (List.prefix_append _ _)
  simp [hfront, hrest]

/-- A way on which no file stands is followed to its end, or to where nothing stands. -/
theorem follow_of_no_file {cs : List String} (hnames : ∀ c ∈ cs, nameFits c = true)
    (hway : ∀ before c after, cs = before ++ c :: after → ∀ b,
      t.get? (before.foldl advance p) ≠ some (.file b)) :
    t.follow p cs = .ok (cs.foldl advance p) ∨ t.follow p cs = .error .missing := by
  induction cs generalizing p with
  | nil => exact Or.inl rfl
  | cons c cs ih =>
    unfold follow
    cases hp : t.get? p with
    | none => exact Or.inr rfl
    | some e =>
      cases e with
      | file b => exact absurd hp (hway [] c cs rfl b)
      | directory =>
        dsimp only
        rw [if_pos (hnames c List.mem_cons_self)]
        refine ih (fun c' hc' => hnames c' (List.mem_cons_of_mem _ hc')) ?_
        intro before c' after hcs
        exact hway (c :: before) c' after (by rw [hcs, List.cons_append])

/-- A directory with no file on the way to it is listed, or missing. -/
theorem list_of_no_file (hlegal : checkPath path = .ok ())
    (hnames : ∀ c ∈ steps path, nameFits c = true)
    (hway : ∀ before c after, steps path = before ++ c :: after → ∀ b,
      t.get? (before.foldl advance (origin path)) ≠ some (.file b))
    (hd : t.get? (placeOf path) = some .directory) :
    t.list path = .error .missing ∨ ∃ entries, t.list path = .ok entries := by
  have hlocate : t.locate path = t.follow (origin path) (steps path) := by
    rw [locate, hlegal]
    rfl
  rcases follow_of_no_file hnames hway with hfollow | hfollow
  · exact Or.inr (list_of_leads (locate_eq_ok_iff.1 (hlocate.trans hfollow)).1 hd)
  · exact Or.inl (bind_eq_error_iff.2 (Or.inl (hlocate.trans hfollow)))

/-- Where nothing stands, and no file on the way, reading finds nothing. -/
theorem read_eq_missing_of_no_file (hlegal : checkPath path = .ok ())
    (hnames : ∀ c ∈ steps path, nameFits c = true)
    (hway : ∀ before c after, steps path = before ++ c :: after → ∀ b,
      t.get? (before.foldl advance (origin path)) ≠ some (.file b))
    (hplace : t.get? (placeOf path) = none) : t.read path = .error .missing := by
  have hlocate : t.locate path = t.follow (origin path) (steps path) := by
    rw [locate, hlegal]
    rfl
  have hstat : t.stat path = .error .missing := by
    unfold stat
    rcases follow_of_no_file hnames hway with hfollow | hfollow
    · refine bind_eq_error_iff.2 (Or.inr ⟨placeOf path, hlocate.trans hfollow, ?_⟩)
      rw [hplace]
    · exact bind_eq_error_iff.2 (Or.inl (hlocate.trans hfollow))
  rw [read, hstat]
  rfl

theorem follow_ne_missing {cs : List String} (hway : ∀ before c after, cs = before ++ c :: after →
    t.get? (before.foldl advance p) = some .directory) : t.follow p cs ≠ .error .missing := by
  induction cs generalizing p with
  | nil => simp [follow]
  | cons c cs ih =>
    have hp : t.get? p = some .directory := hway [] c cs rfl
    unfold follow
    rw [hp]
    dsimp only
    split_ifs
    · refine ih fun before c' after hcs => ?_
      exact hway (c :: before) c' after (by rw [hcs, List.cons_append])
    · simp

/-- A directory that stands is not missing under its clean path. -/
theorem Stands.list_clean_ne_missing (h : t.Stands path) :
    t.list (Path.clean path) ≠ .error .missing := by
  have hself := Path.mem_fronts_self (Path.clean_ne_empty path)
  intro hlist
  unfold list at hlist
  rcases bind_eq_error_iff.1 hlist with hlocate | ⟨p, hp, hlist⟩
  · unfold locate at hlocate
    rcases bind_eq_error_iff.1 hlocate with hlegal | ⟨-, -, hfollow⟩
    · unfold checkPath at hlegal
      rw [if_neg (Path.clean_ne_empty path)] at hlegal
      split_ifs at hlegal <;> cases hlegal
    · exact follow_ne_missing (fun before c after hsteps =>
        h.front hself (prefix_components_of_steps hsteps)) hfollow
  · obtain ⟨-, rfl⟩ := locate_eq_ok_iff.1 hp
    have hdirectory := h.front hself List.prefix_rfl
    rw [← placeOf_eq] at hdirectory
    rw [hdirectory] at hlist
    cases hlist

end FileTree
end ApiDiagrams
