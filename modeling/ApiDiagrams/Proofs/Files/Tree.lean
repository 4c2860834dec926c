import ApiDiagrams.Files.Tree
import ApiDiagrams.Proofs.Files.Path
import ApiDiagrams.Proofs.Passes

/-!
# What operations on files do

A path leads to the same place in every tree where it can be followed. Writing a file changes what
stands at its place and nothing else; making directories puts directories where nothing stood.

* `placeOf`: the place that a path leads to, and `placeOf_join` for a file named below a path;
* `get?_put`, `follow_eq_ok_iff`, `write_eq_ok_iff`: single operations;
* `Stands`: the directory of a path stands, with those above it;
* `leads_join_iff`, `Leads.congr`, `Writable.congr`: when a file below a path can be reached and
  written;
* `made_makeDirs`, `makeDirs_clean_of_leads`, `get?_makeDirs_clean`: making directories.
-/

namespace ApiDiagrams
namespace FileTree

/-! ### The place of a path -/

/-- The place that a path leads to, whatever stands on the way. -/
def placeOf (path : String) : Place := (steps path).foldl advance (origin path)

theorem placeOf_eq (path : String) :
    placeOf path = (Path.components path).foldl advance (origin path) := by
  unfold placeOf steps
  split_ifs
  · rw [List.foldl_append]
    rfl
  · rw [List.append_nil]

/-- The place with the given components, last one first. -/
def lay (absolute : Bool) (done : List String) : Place :=
  (if absolute then root else []) ++ done.reverse

theorem origin_eq (path : String) : origin path = lay (Path.isAbsolute path) [] := by
  simp [origin, lay]

section Lay

variable {absolute : Bool} {done : List String}

theorem lay_cons (c : String) : lay absolute (c :: done) = lay absolute done ++ [c] := by
  simp [lay]

theorem all_dots_of_settled (h : Path.Settled false (".." :: done)) :
    (lay false (".." :: done)).all (· == "..") = true := by
  simp only [lay, Bool.false_eq_true, if_false, List.nil_append, List.all_reverse, List.all_cons,
    beq_self_eq_true, Bool.true_and, List.all_eq_true, beq_iff_eq]
  exact fun c hc => h.eq_dots hc

theorem eq_replicate_of_all {p : Place} (h : p.all (· == "..") = true) :
    p = List.replicate p.length ".." := by
  refine List.eq_replicate_iff.2 ⟨rfl, fun c hc => ?_⟩
  simpa using List.all_eq_true.1 h c hc

/-- Where there are only ways back so far, one more in front is one more behind. -/
theorem advance_of_all {p : Place} (h : p.all (· == "..") = true) : advance p ".." = p ++ [".."] := by
  have hroot : p ≠ root := by
    rintro rfl
    revert h
    decide
  have hrep := eq_replicate_of_all h
  rw [advance, if_neg (by decide), if_pos rfl, if_neg hroot, if_pos h]
  calc ".." :: p = List.replicate (p.length + 1) ".." := by rw [List.replicate_succ, ← hrep]
    _ = p ++ [".."] := by rw [List.replicate_succ', ← hrep]

/-- A way back takes the last component away. -/
theorem advance_concat {p : Place} {d : String} (hdots : d ≠ "..") (hslash : d ≠ "/") :
    advance (p ++ [d]) ".." = p := by
  have hroot : p ++ [d] ≠ root := by
    intro h
    have hlast := congrArg List.getLast? h
    rw [List.getLast?_concat] at hlast
    exact hslash (Option.some.inj hlast)
  have hall : (p ++ [d]).all (· == "..") = false := by simp [hdots]
  rw [advance, if_neg (by decide), if_pos rfl, if_neg hroot, hall, if_neg Bool.false_ne_true,
    List.dropLast_concat]

/-- A step from a settled place is one more component worked off. -/
theorem advance_lay (h : Path.Settled absolute done) (hs : ∀ c ∈ done, Path.IsPiece c)
    (c : String) : advance (lay absolute done) c = lay absolute (Path.push absolute done c) := by
  by_cases h1 : c = "."
  · simp [advance, Path.push, h1]
  by_cases h2 : c = ".."
  · subst h2
    cases done with
    | nil => cases absolute <;> simp [advance, Path.push, lay, root]
    | cons d rest =>
      rw [Path.push, if_neg h1, if_pos rfl]
      split_ifs with hd
      · subst hd
        cases absolute with
        | true => exact absurd List.mem_cons_self h.not_mem_of_absolute
        | false => rw [advance_of_all (all_dots_of_settled h), ← lay_cons]
      · have hslash : d ≠ "/" := by
          rintro rfl
          exact (hs "/" List.mem_cons_self).2 (by decide)
        rw [lay_cons, advance_concat hd hslash]
  · rw [Path.push_of_ne h1 h2, lay_cons, advance, if_neg h1, if_neg h2]

theorem foldl_advance_lay (h : Path.Settled absolute done) (hs : ∀ c ∈ done, Path.IsPiece c)
    {cs : List String} (hcs : ∀ c ∈ cs, Path.IsPiece c) :
    cs.foldl advance (lay absolute done) = lay absolute (cs.foldl (Path.push absolute) done) := by
  induction cs generalizing done with
  | nil => rfl
  | cons c cs ih =>
    rw [List.foldl_cons, List.foldl_cons, advance_lay h hs c]
    refine ih (h.push c) (fun d hd => ?_) fun d hd => hcs d (List.mem_cons_of_mem _ hd)
    rcases Path.mem_push hd with hd | rfl | rfl
    · exact hs d hd
    · exact hcs d List.mem_cons_self
    · exact Path.isPiece_dots

end Lay

/-- Components that can be followed lead to what is left when they are worked off. -/
theorem foldl_advance_origin (path : String) {cs : List String}
    (hcs : ∀ c ∈ cs, Path.IsPiece c) : cs.foldl advance (origin path) =
      lay (Path.isAbsolute path) (cs.foldl (Path.push (Path.isAbsolute path)) []) := by
  have h0 : Path.Settled (Path.isAbsolute path) [] := trivial
  rw [origin_eq]
  exact foldl_advance_lay h0 (fun c hc => by cases hc) hcs

theorem placeOf_eq_lay (path : String) :
    placeOf path = lay (Path.isAbsolute path) (Path.trail path) := by
  rw [placeOf_eq, foldl_advance_origin path fun c hc => Path.isPiece_of_mem_components hc]
  rfl

/-- A file named below a path stands directly in the directory of the path. -/
theorem placeOf_join {path name : String} (hp : path ≠ "") (hn : Path.IsName name) :
    placeOf (Path.join [path, name]) = placeOf path ++ [name] := by
  rw [placeOf_eq_lay, placeOf_eq_lay, Path.isAbsolute_join hp hn, Path.trail_join hp hn, lay_cons]

/-- Only a few names stand in every tree. -/
theorem standing?_concat {name : String} (h : name ∉ ["..", "/", "dev", "tmp", "null"])
    (p : Place) : standing? (p ++ [name]) = none := by
  simp only [List.mem_cons, List.not_mem_nil, or_false, not_or] at h
  obtain ⟨hdots, hslash, hdev, htmp, hnull⟩ := h
  have hall : (p ++ [name]).all (· == "..") = false := by
    rw [List.all_append, Bool.and_eq_false_iff]
    right
    simp [hdots]
  have hne : ∀ (q : Place) (c : String), q.getLast? = some c → name ≠ c → p ++ [name] ≠ q := by
    rintro q c hq hc rfl
    rw [List.getLast?_concat, Option.some.injEq] at hq
    exact hc hq
  unfold standing?
  simp only [hall, hne root "/" rfl hslash, hne ["/", "dev"] "dev" rfl hdev,
    hne ["/", "tmp"] "tmp" rfl htmp, hne ["/", "dev", "null"] "null" rfl hnull, decide_false,
    Bool.or_self, Bool.false_eq_true, if_false]

/-! ### Single operations -/

theorem lookup_map_update {l : List (Place × FileEntry)} {p q : Place} {e : FileEntry} :
    (l.map fun (k, old) => if k = p then (k, e) else (k, old)).lookup q =
      (l.lookup q).map fun old => if q = p then e else old := by
  induction l with
  | nil => rfl
  | cons x l ih =>
    obtain ⟨k, old⟩ := x
    have hkey : (if k = p then (k, e) else (k, old)) = (k, if k = p then e else old) := by
      split_ifs <;> rfl
    simp only [List.map_cons, hkey, List.lookup_cons, ih]
    by_cases hq : q = k
    · simp [hq]
    · simp [beq_eq_false_iff_ne.2 hq]

theorem lookup_put (t : FileTree) (p q : Place) (e : FileEntry) :
    (t.put p e).entries.lookup q = if q = p then some e else t.entries.lookup q := by
  unfold put
  split_ifs with h hq hq
  · obtain ⟨old, hold⟩ := Option.isSome_iff_exists.1 h
    rw [lookup_map_update, hq, hold]
    simp
  · rw [lookup_map_update]
    simp [hq]
  · rw [Option.not_isSome_iff_eq_none] at h
    simp [List.lookup_append, hq, h]
  · simp [List.lookup_append, List.lookup_cons, beq_eq_false_iff_ne.2 hq]

/-- What is put at a place again counts. -/
theorem put_put (t : FileTree) (p : Place) (e e' : FileEntry) :
    (t.put p e).put p e' = t.put p e' := by
  have hsome : ((t.put p e).entries.lookup p).isSome = true := by
    rw [lookup_put, if_pos rfl]
    rfl
  rw [put, if_pos hsome]
  unfold put
  split_ifs with h
  · rw [List.map_map]
    congr 1
    refine List.map_congr_left fun x _ => ?_
    by_cases hx : x.1 = p <;> simp [hx]
  · have hother : ∀ x ∈ t.entries, x.1 ≠ p := by
      rintro ⟨q, old⟩ hx rfl
      refine h ?_
      rw [Option.isSome_iff_ne_none, Ne, List.lookup_eq_none_iff]
      exact fun hnone => by simpa using hnone _ hx
    have hsame : t.entries.map (fun x => if x.1 = p then (x.1, e') else (x.1, x.2)) = t.entries := by
      refine (List.map_congr_left fun x hx => ?_).trans (List.map_id' _)
      rw [if_neg (hother x hx)]
    rw [List.map_append]
    simp [hsame]

/-- What is put at a place stands there, unless something always does. -/
theorem get?_put (t : FileTree) (p q : Place) (e : FileEntry) : (t.put p e).get? q =
    if q = p ∧ standing? p = none then some e else t.get? q := by
  unfold get?
  rw [lookup_put]
  by_cases hq : q = p
  · subst hq
    cases hs : standing? q <;> simp
  · simp [hq]

/-- A path can be followed exactly when every step starts from a directory and names are short. -/
theorem follow_eq_ok_iff {t : FileTree} {p q : Place} {cs : List String} :
    t.follow p cs = .ok q ↔ q = cs.foldl advance p ∧ ∀ before c after, cs = before ++ c :: after →
      t.get? (before.foldl advance p) = some .directory ∧ nameFits c = true := by
  induction cs generalizing p with
  | nil =>
    rw [follow, Except.ok.injEq, List.foldl_nil]
    constructor
    · rintro rfl
      exact ⟨rfl, by simp⟩
    · rintro ⟨rfl, -⟩
      rfl
  | cons c cs ih =>
    have hsplit : (∀ before d after, c :: cs = before ++ d :: after →
          t.get? (before.foldl advance p) = some .directory ∧ nameFits d = true) ↔
        (t.get? p = some .directory ∧ nameFits c = true) ∧
          ∀ before d after, cs = before ++ d :: after →
            t.get? (before.foldl advance (advance p c)) = some .directory ∧ nameFits d = true := by
      constructor
      · intro h
        refine ⟨h [] c cs rfl, fun before d after hcs => ?_⟩
        exact h (c :: before) d after (by rw [hcs, List.cons_append])
      · rintro ⟨hc, h⟩ before d after hcs
        cases before with
        | nil =>
          rw [List.nil_append, List.cons.injEq] at hcs
          rw [← hcs.1]
          exact hc
        | cons b before =>
          rw [List.cons_append, List.cons.injEq] at hcs
          rw [List.foldl_cons, ← hcs.1]
          exact h before d after hcs.2
    rw [hsplit, List.foldl_cons, follow]
    split
    next hd =>
      split_ifs with hfit
      · rw [ih]
        simp [hd, hfit]
      · simp [hfit]
    next hd => simp [hd]
    next hd => simp [hd]

/-- A path can be followed in a tree. -/
structure Leads (t : FileTree) (path : String) : Prop where
  legal : checkPath path = .ok ()
  directories : ∀ before c after, steps path = before ++ c :: after →
    t.get? (before.foldl advance (origin path)) = some .directory
  names : ∀ c ∈ steps path, nameFits c = true

theorem Leads.mono {t t' : FileTree} {path : String} (h : t.Leads path)
    (hd : ∀ q, t.get? q = some .directory → t'.get? q = some .directory) : t'.Leads path :=
  ⟨h.legal, fun before c after hs => hd _ (h.directories before c after hs), h.names⟩

theorem locate_eq_ok_iff {t : FileTree} {path : String} {p : Place} :
    t.locate path = .ok p ↔ t.Leads path ∧ p = placeOf path := by
  unfold locate
  rw [bind_eq_ok_iff]
  constructor
  · rintro ⟨⟨⟩, hc, hf⟩
    obtain ⟨hp, hall⟩ := follow_eq_ok_iff.1 hf
    refine ⟨⟨hc, fun before c after h => (hall before c after h).1, fun c hmem => ?_⟩, hp⟩
    obtain ⟨before, after, h⟩ := List.append_of_mem hmem
    exact (hall before c after h).2
  · rintro ⟨hl, rfl⟩
    refine ⟨(), hl.legal, follow_eq_ok_iff.2 ⟨rfl, fun before c after h => ?_⟩⟩
    exact ⟨hl.directories before c after h, hl.names c (by rw [h]; simp)⟩

/-- A file can be written at a path. -/
def Writable (t : FileTree) (path : String) : Prop :=
  t.Leads path ∧ t.get? (placeOf path) ≠ some .directory

theorem write_eq_ok_iff {t t' : FileTree} {path : String} {content : ByteArray} :
    t.write path content = .ok t' ↔
      t.Writable path ∧ t' = t.put (placeOf path) (.file content) := by
  unfold write Writable
  rw [bind_eq_ok_iff]
  constructor
  · rintro ⟨p, hp, h⟩
    obtain ⟨hl, rfl⟩ := locate_eq_ok_iff.1 hp
    split at h
    next => cases h
    next hd => exact ⟨⟨hl, hd⟩, (Except.ok.inj h).symm⟩
  · rintro ⟨⟨hl, hd⟩, rfl⟩
    refine ⟨_, locate_eq_ok_iff.2 ⟨hl, rfl⟩, ?_⟩
    split
    next h => exact absurd h hd
    next => rfl

section Write

variable {t t' : FileTree} {path : String} {content : ByteArray}

theorem get?_write (h : t.write path content = .ok t') (hs : standing? (placeOf path) = none)
    (q : Place) : t'.get? q = if q = placeOf path then some (.file content) else t.get? q := by
  obtain ⟨-, rfl⟩ := write_eq_ok_iff.1 h
  rw [get?_put]
  simp [hs]

/-- Writing a file neither makes a directory nor takes one away. -/
theorem directory_write_iff (h : t.write path content = .ok t') (q : Place) :
    t'.get? q = some .directory ↔ t.get? q = some .directory := by
  obtain ⟨⟨-, hd⟩, rfl⟩ := write_eq_ok_iff.1 h
  rw [get?_put]
  split_ifs with hq
  · rw [hq.1]
    simp [hd]
  · rfl

/-- A file that was written can be written again, and what is written last counts. -/
theorem write_write (h : t.write path content = .ok t') (content' : ByteArray) :
    t'.write path content' = .ok (t.put (placeOf path) (.file content')) := by
  have hdirectory := directory_write_iff h
  obtain ⟨⟨hleads, hfree⟩, rfl⟩ := write_eq_ok_iff.1 h
  refine write_eq_ok_iff.2 ⟨⟨hleads.mono fun q => (hdirectory q).2, ?_⟩, (put_put _ _ _ _).symm⟩
  rwa [Ne, hdirectory]

/-- The content does not matter for whether a file can be written. -/
theorem write_eq_error {e : FileFailure} (h : t.write path content = .error e)
    (content' : ByteArray) : t.write path content' = .error e := by
  unfold write at h ⊢
  rcases bind_eq_error_iff.1 h with hlocate | ⟨p, hp, h⟩
  · exact bind_eq_error_iff.2 (.inl hlocate)
  · refine bind_eq_error_iff.2 (.inr ⟨p, hp, ?_⟩)
    split at h
    · exact h
    · cases h

end Write

/-! ### Making directories -/

/-- What differs between two trees is that directories of a list of paths have been made. -/
def Made (paths : List String) (t t' : FileTree) : Prop :=
  ∀ q, t'.get? q = t.get? q ∨
    t.get? q = none ∧ t'.get? q = some .directory ∧ ∃ path ∈ paths, q = placeOf path

theorem made_makeDir {t t' : FileTree} {path : String} (h : t.makeDir path = .ok t') :
    Made [path] t t' := by
  unfold makeDir at h
  rw [bind_eq_ok_iff] at h
  obtain ⟨⟨⟩, -, h⟩ := h
  rw [bind_eq_ok_iff] at h
  obtain ⟨p, hp, h⟩ := h
  have hplace : p = placeOf path := by
    rw [placeOf_eq]
    exact (follow_eq_ok_iff.1 hp).1
  split_ifs at h with hfree
  cases h
  rw [Option.not_isSome_iff_eq_none] at hfree
  intro q
  rw [get?_put]
  split_ifs with hq
  · refine Or.inr ⟨hq.1 ▸ hfree, rfl, path, List.mem_singleton_self _, hq.1.trans hplace⟩
  · exact Or.inl rfl

theorem Made.trans {ps qs : List String} {t t' t'' : FileTree} (h : Made ps t t')
    (h' : Made qs t' t'') : Made (ps ++ qs) t t'' := by
  intro q
  rcases h q with h | ⟨h1, h2, path, hm, hq⟩
  · rcases h' q with h' | ⟨h1, h2, path, hm, hq⟩
    · exact Or.inl (h'.trans h)
    · exact Or.inr ⟨h ▸ h1, h2, path, List.mem_append_right _ hm, hq⟩
  · rcases h' q with h' | ⟨h1', -, -⟩
    · exact Or.inr ⟨h1, h' ▸ h2, path, List.mem_append_left _ hm, hq⟩
    · rw [h2] at h1'
      cases h1'

theorem made_makeEach (t : FileTree) (paths : List String) : Made paths t (t.makeEach paths).1 := by
  induction paths generalizing t with
  | nil => exact fun q => Or.inl rfl
  | cons path paths ih =>
    have hskip : Made [path] t t := fun q => Or.inl rfl
    unfold makeEach
    split
    next => exact hskip.trans (ih t)
    next => exact fun q => Or.inl rfl
    next =>
      split
      next t' h => exact (made_makeDir h).trans (ih t')
      next => exact fun q => Or.inl rfl

theorem made_makeDirs (t : FileTree) (path : String) :
    Made (Path.fronts path) t (t.makeDirs path).1 := by
  unfold makeDirs
  split_ifs
  · exact fun q => Or.inl rfl
  · exact made_makeEach t _

/-! ### A directory that stands -/

/-- The directory of a path stands, with those above it. -/
def Stands (t : FileTree) (path : String) : Prop :=
  ∀ rest, rest <:+ Path.trail path → t.get? (lay (Path.isAbsolute path) rest) = some .directory

variable {t t' : FileTree} {path name : String}

theorem lay_prefix_placeOf {rest : List String} (h : rest <:+ Path.trail path) :
    lay (Path.isAbsolute path) rest <+: placeOf path := by
  rw [placeOf_eq_lay]
  exact List.prefix_append_right_inj _ |>.2 (List.reverse_prefix.2 h)

theorem Stands.congr (h : t.Stands path) (hd : ∀ q, q <+: FileTree.placeOf path →
    t.get? q = some .directory → t'.get? q = some .directory) : t'.Stands path :=
  fun rest hrest => hd _ (lay_prefix_placeOf hrest) (h rest hrest)

theorem steps_join (hp : path ≠ "") (hn : Path.IsName name) :
    steps (Path.join [path, name]) = (Path.trail path).reverse ++ [name] := by
  have hcomp : Path.components (Path.join [path, name]) = (Path.trail path).reverse ++ [name] := by
    rw [Path.join_pair hp hn.piece.1, Path.components_clean, ← Path.trail_clean,
      ← Path.join_pair hp hn.piece.1, Path.trail_join hp hn]
    simp
  have hend : Text.endsWith ['/'] (Path.join [path, name]).toList = false := by
    have hne : name.toList.reverse ≠ [] := by
      rw [Ne, List.reverse_eq_nil_iff]
      exact fun h => hn.piece.1 (String.toList_inj.1 h)
    obtain ⟨c, cs, hcs⟩ := List.exists_cons_of_ne_nil hne
    have hc : c ≠ '/' := by
      rintro rfl
      refine hn.piece.2 (List.mem_reverse.1 ?_)
      rw [hcs]
      exact List.mem_cons_self
    rw [Path.join_eq hp hn, String.toList_append, Text.endsWith, List.reverse_append, hcs]
    simp [Text.startsWith, Text.startsWith?, Ne.symm hc]
  rw [steps, hcomp, hend]
  simp

/-- The first components of a settled path lead through the directories above its place. -/
theorem foldl_reverse_suffix {rest : List String} (h : rest <:+ Path.trail path) :
    rest.reverse.foldl advance (origin path) = lay (Path.isAbsolute path) rest := by
  have hs : Path.Settled (Path.isAbsolute path) rest := (Path.settled_trail path).suffix h
  have hpieces : ∀ c ∈ rest.reverse, Path.IsPiece c := fun c hc =>
    Path.isPiece_of_mem_trail (h.subset (List.mem_reverse.1 hc))
  rw [foldl_advance_origin path hpieces, hs.foldl_reverse]

theorem leads_join_iff (hp : path ≠ "") (hn : Path.IsName name) :
    t.Leads (Path.join [path, name]) ↔ checkPath (Path.join [path, name]) = .ok () ∧
      t.Stands path ∧ ∀ c ∈ (Path.trail path).reverse ++ [name], nameFits c = true := by
  have horigin : origin (Path.join [path, name]) = origin path := by
    rw [origin_eq, origin_eq, Path.isAbsolute_join hp hn]
  constructor
  · rintro ⟨hlegal, hdirs, hnames⟩
    rw [steps_join hp hn] at hdirs hnames
    refine ⟨hlegal, fun rest hrest => ?_, hnames⟩
    obtain ⟨before, hbefore⟩ := hrest
    -- the components of `rest` come first, and a step follows them
    obtain ⟨c, after, hafter⟩ : ∃ c after, before.reverse ++ [name] = c :: after :=
      List.exists_cons_of_ne_nil (by simp)
    have hsplit : (Path.trail path).reverse ++ [name] = rest.reverse ++ c :: after := by
      rw [← hbefore, List.reverse_append, List.append_assoc, hafter]
    rw [← foldl_reverse_suffix ⟨before, hbefore⟩, ← horigin]
    exact hdirs rest.reverse c after hsplit
  · rintro ⟨hlegal, hstands, hnames⟩
    rw [← steps_join hp hn] at hnames
    refine ⟨hlegal, fun before c after h => ?_, hnames⟩
    rw [steps_join hp hn] at h
    have hpre : before <+: (Path.trail path).reverse := by
      refine List.prefix_of_prefix_length_le ⟨c :: after, h.symm⟩ (List.prefix_append _ [name]) ?_
      have hlen := congrArg List.length h
      simp only [List.length_append, List.length_cons, List.length_nil] at hlen
      omega
    have hsuf : before.reverse <:+ Path.trail path := by
      rw [← List.reverse_prefix, List.reverse_reverse]
      exact hpre
    have hlay := foldl_reverse_suffix hsuf
    rw [List.reverse_reverse] at hlay
    rw [horigin, hlay]
    exact hstands _ hsuf

theorem Leads.congr (hp : path ≠ "") (hn : Path.IsName name)
    (h : t.Leads (Path.join [path, name])) (hd : ∀ q, q <+: placeOf path →
      t.get? q = some .directory → t'.get? q = some .directory) :
    t'.Leads (Path.join [path, name]) := by
  obtain ⟨hlegal, hstands, hnames⟩ := (leads_join_iff hp hn).1 h
  exact (leads_join_iff hp hn).2 ⟨hlegal, hstands.congr hd, hnames⟩

theorem Writable.congr (hp : path ≠ "") (hn : Path.IsName name)
    (h : t.Writable (Path.join [path, name]))
    (hd : ∀ q, q <+: placeOf path ∨ q = placeOf path ++ [name] →
      (t.get? q = some .directory ↔ t'.get? q = some .directory)) :
    t'.Writable (Path.join [path, name]) := by
  obtain ⟨hl, hfree⟩ := h
  refine ⟨hl.congr hp hn fun q hq => (hd q (Or.inl hq)).1, ?_⟩
  rw [placeOf_join hp hn] at hfree ⊢
  exact fun h => hfree ((hd _ (Or.inr rfl)).2 h)

/-! ### Making a directory that stands -/

theorem stat_of_leads {p : String} (h : t.Leads p) (hd : t.get? (placeOf p) = some .directory) :
    t.stat p = .ok .directory := by
  unfold stat
  refine bind_eq_ok_iff.2 ⟨_, locate_eq_ok_iff.2 ⟨h, rfl⟩, ?_⟩
  rw [hd]
  rfl

theorem checkPath_eq_ok_iff {p : String} : checkPath p = .ok () ↔
    (∀ c ∈ p.toList, c.toNat ≠ 0) ∧ p ≠ "" ∧ p.utf8ByteSize < pathBound := by
  unfold checkPath
  split_ifs with h1 h2 h3
  · simp only [false_iff, not_and]
    intro h
    obtain ⟨c, hc, hz⟩ := List.any_eq_true.1 h1
    exact absurd (of_decide_eq_true hz) (h c hc)
  · simp [h2]
  · simp only [false_iff, not_and]
    exact fun _ _ => by omega
  · simp only [List.any_eq_true, decide_eq_true_eq, not_exists, not_and] at h1
    simp only [true_iff]
    exact ⟨h1, h2, by omega⟩

theorem checkPath_of_prefix {a b : String} (h : a.toList <+: b.toList) (hne : a ≠ "")
    (hb : checkPath b = .ok ()) : checkPath a = .ok () := by
  obtain ⟨hz, -, hsize⟩ := checkPath_eq_ok_iff.1 hb
  refine checkPath_eq_ok_iff.2 ⟨fun c hc => hz c (h.subset hc), hne, ?_⟩
  obtain ⟨rest, hrest⟩ := h
  have hab : b = a ++ String.ofList rest := by
    rw [← String.toList_inj, String.toList_append, String.toList_ofList, hrest]
  rw [hab, String.utf8ByteSize_append] at hsize
  omega

theorem makeEach_of_stat {paths : List String} (h : ∀ p ∈ paths, t.stat p = .ok .directory) :
    t.makeEach paths = (t, .ok ()) := by
  induction paths with
  | nil => rfl
  | cons p paths ih =>
    rw [makeEach, h p List.mem_cons_self]
    exact ih fun q hq => h q (List.mem_cons_of_mem _ hq)

theorem eq_of_prefix_singleton {α : Type} {l : List α} {a : α} (h : l <+: [a]) :
    l = [] ∨ l = [a] := by
  cases l with
  | nil => exact Or.inl rfl
  | cons b l =>
    rw [List.cons_prefix_cons, List.prefix_nil] at h
    rw [h.1, h.2]
    exact Or.inr rfl

/-- The first components of a clean path are settled as they are worked off. -/
theorem foldl_push_suffix {before : List String}
    (h : before <+: Path.components (Path.clean path)) :
    before.foldl (Path.push (Path.isAbsolute path)) [] <:+ Path.trail path := by
  rw [Path.components_clean] at h
  split_ifs at h with hdot
  · have hnil : before.foldl (Path.push (Path.isAbsolute path)) [] = [] := by
      rcases eq_of_prefix_singleton h with rfl | rfl <;> rfl
    rw [hnil]
    exact List.nil_suffix
  · have hsuf : before.reverse <:+ Path.trail path := by
      rw [← List.reverse_prefix, List.reverse_reverse]
      exact h
    have hfold := ((Path.settled_trail path).suffix hsuf).foldl_reverse
    rw [List.reverse_reverse] at hfold
    rw [hfold]
    exact hsuf

/-- Wherever the first components of a front of a path lead, a directory stands when the directory
of the path does. -/
theorem Stands.front (h : t.Stands path) {front : String}
    (hf : front ∈ Path.fronts (Path.clean path)) {before : List String}
    (hb : before <+: Path.components front) :
    t.get? (before.foldl advance (origin front)) = some .directory := by
  obtain ⟨-, -, habs, hcomp⟩ := Path.front_of_mem_fronts hf
  rw [Path.isAbsolute_clean] at habs
  have horigin : origin front = origin path := by rw [origin_eq, origin_eq, habs]
  have hpieces : ∀ c ∈ before, Path.IsPiece c := fun c hc =>
    Path.isPiece_of_mem_components (hb.subset hc)
  rw [horigin, foldl_advance_origin path hpieces]
  exact h _ (foldl_push_suffix (hb.trans hcomp))

/-- The steps before another one are components of the path. -/
theorem prefix_components_of_steps {before after : List String} {c : String}
    (h : steps path = before ++ c :: after) : before <+: Path.components path := by
  have hle : before.length ≤ (Path.components path).length := by
    have hlen := congrArg List.length h
    simp only [steps, List.length_append, List.length_cons] at hlen
    split_ifs at hlen <;> simp only [List.length_cons, List.length_nil] at hlen <;> omega
  exact List.prefix_of_prefix_length_le ⟨c :: after, h.symm⟩ (List.prefix_append _ _) hle

/-- Where a file below a path can be reached, the directories of the path are there already. -/
theorem stat_front (hp : path ≠ "") (hn : Path.IsName name)
    (h : t.Leads (Path.join [path, name])) {front : String}
    (hf : front ∈ Path.fronts (Path.clean path)) : t.stat front = .ok .directory := by
  obtain ⟨hlegal, hstands, hnames⟩ := (leads_join_iff hp hn).1 h
  obtain ⟨hne, hpre, -, hcomp⟩ := Path.front_of_mem_fronts hf
  refine stat_of_leads ⟨?_, fun before c after hsteps => ?_, fun c hc => ?_⟩ ?_
  · rcases Path.clean_eq_dot_or path with hdot | hclean
    · have hfront : front = "." := by
        rw [hdot] at hpre
        rcases eq_of_prefix_singleton hpre with h0 | h1
        · exact absurd (String.toList_inj.1 h0) hne
        · exact String.toList_inj.1 h1
      rw [hfront]
      rfl
    · refine checkPath_of_prefix (hpre.trans (hclean.trans ?_)) hne hlegal
      rw [Path.join_eq hp hn, String.toList_append]
      exact List.prefix_append _ _
  · exact hstands.front hf (prefix_components_of_steps hsteps)
  · have hdot : nameFits "." = true := by decide
    unfold steps at hc
    rcases List.mem_append.1 hc with hc | hc
    · have hmem := hcomp.subset hc
      rw [Path.components_clean] at hmem
      split_ifs at hmem
      · rw [List.mem_singleton.1 hmem]
        exact hdot
      · exact hnames c (List.mem_append_left _ hmem)
    · split_ifs at hc
      · rw [List.mem_singleton.1 hc]
        exact hdot
      · cases hc
  · rw [placeOf_eq]
    exact hstands.front hf List.prefix_rfl

/-- Where a file can be reached, making its directory changes nothing. -/
theorem makeDirs_clean_of_leads (hp : path ≠ "") (hn : Path.IsName name)
    (h : t.Leads (Path.join [path, name])) : t.makeDirs (Path.clean path) = (t, .ok ()) := by
  rw [makeDirs, if_neg (Path.clean_ne_empty path)]
  exact makeEach_of_stat fun front hf => stat_front hp hn h hf

/-- Making a directory again leaves every place alone that is as it was when the directory stood. -/
theorem get?_makeDirs_clean (h : t.Stands path) {q : Place} (hq : t'.get? q = t.get? q) :
    (t'.makeDirs (Path.clean path)).1.get? q = t'.get? q := by
  rcases made_makeDirs t' (Path.clean path) q with heq | ⟨hnone, -, front, hf, rfl⟩
  · exact heq
  · have hdir := h.front hf List.prefix_rfl
    rw [← placeOf_eq, ← hq, hnone] at hdir
    cases hdir

end FileTree
end ApiDiagrams
