import ApiDiagrams.Files.Path
import ApiDiagrams.Proofs.Name
import Mathlib.Data.String.Basic
import Mathlib.Tactic

/-!
# Clean paths

A clean path names the components that are left when those that only stay or go back are worked
off. Working them off once more changes nothing, so a clean path is its own clean path, and the
directory of a file named below a path is the clean path itself.

* `IsPiece`: a text that can be a component;
* `trail`: what is left of the components of a path, last one first;
* `Settled`: nothing in a list of components can be worked off;
* `components_clean`, `trail_clean`: the components of a clean path;
* `join_eq`, `trail_join`, `dir_join`: a file named below a path;
* `front_of_mem_fronts`: the directories that a path leads through.
-/

namespace ApiDiagrams

namespace Text

theorem splitOn_append_cons (sep : Char) (a b : List Char) :
    splitOn sep (a ++ sep :: b) = splitOn sep a ++ splitOn sep b := by
  induction a with
  | nil => simp [splitOn]
  | cons c a ih =>
    obtain ⟨p, ps, hs⟩ := List.exists_cons_of_ne_nil (splitOn_ne_nil sep a)
    by_cases hc : c = sep
    · simp [splitOn, hc, ih]
    · simp [splitOn, hc, ih, hs]

end Text

namespace Path

/-! ### Components -/

/-- A text that can be a component of a path. -/
def IsPiece (c : String) : Prop := c ≠ "" ∧ '/' ∉ c.toList

theorem isPiece_dots : IsPiece ".." := ⟨by decide, by decide⟩

theorem isPiece_of_mem_components {path c : String} (h : c ∈ components path) : IsPiece c := by
  simp only [components, List.mem_map, List.mem_filter, decide_eq_true_eq] at h
  obtain ⟨cs, ⟨hcs, hne⟩, rfl⟩ := h
  refine ⟨fun h0 => hne ?_, ?_⟩
  · rw [← String.toList_inj, String.toList_ofList] at h0
    exact h0
  · rw [String.toList_ofList]
    exact Text.not_mem_of_mem_splitOn hcs

@[simp] theorem components_empty : components "" = [] := by decide

theorem IsPiece.components {c : String} (h : IsPiece c) : components c = [c] := by
  have hne : c.toList ≠ [] := fun h0 => h.1 (String.toList_inj.1 h0)
  simp [Path.components, Text.splitOn_of_not_mem h.2, hne]

theorem components_append (a b : String) :
    components (a ++ "/" ++ b) = components a ++ components b := by
  have hlist : (a ++ "/" ++ b).toList = a.toList ++ '/' :: b.toList := by simp
  simp [components, hlist, Text.splitOn_append_cons]

/-- Components joined by slashes are read back. -/
theorem components_intercalate {parts : List String} (h : ∀ c ∈ parts, IsPiece c) :
    components (String.intercalate "/" parts) = parts := by
  induction parts with
  | nil => decide
  | cons c parts ih =>
    have hc := (h c List.mem_cons_self).components
    cases parts with
    | nil => simpa using hc
    | cons d parts =>
      rw [String.intercalate_cons_cons, components_append, hc,
        ih fun x hx => h x (List.mem_cons_of_mem _ hx)]
      rfl

theorem isAbsolute_iff {path : String} : isAbsolute path = true ↔ path.toList.head? = some '/' := by
  unfold isAbsolute Text.startsWith
  cases path.toList with
  | nil => simp [Text.startsWith?]
  | cons c cs =>
    by_cases hc : c = '/'
    · simp [Text.startsWith?, hc]
    · simp [Text.startsWith?, hc, Ne.symm hc]

/-- What stands behind a nonempty path does not matter for where the path starts. -/
theorem isAbsolute_append {a : String} (h : a ≠ "") (b : String) :
    isAbsolute (a ++ b) = isAbsolute a := by
  have hne : a.toList ≠ [] := fun h0 => h (String.toList_inj.1 h0)
  rw [Bool.eq_iff_iff, isAbsolute_iff, isAbsolute_iff, String.toList_append, List.head?_append]
  obtain ⟨c, cs, hcs⟩ := List.exists_cons_of_ne_nil hne
  simp [hcs]

theorem IsPiece.isAbsolute {c : String} (h : IsPiece c) : isAbsolute c = false := by
  rw [Bool.eq_false_iff, Ne, isAbsolute_iff]
  intro h0
  exact h.2 (List.mem_of_mem_head? h0)

/-! ### Working off components -/

/-- Nothing in a list of components, last one first, can be worked off. -/
def Settled (absolute : Bool) : List String → Prop
  | [] => True
  | c :: done => push absolute done c = c :: done ∧ Settled absolute done

variable {absolute : Bool} {done : List String}

theorem push_of_ne {c : String} (h1 : c ≠ ".") (h2 : c ≠ "..") :
    push absolute done c = c :: done := by
  simp [push, h1, h2]

theorem Settled.push (h : Settled absolute done) (c : String) :
    Settled absolute (push absolute done c) := by
  by_cases h1 : c = "."
  · simpa [Path.push, h1] using h
  by_cases h2 : c = ".."
  · subst h2
    cases done with
    | nil => cases absolute <;> simp [Path.push, Settled]
    | cons d rest =>
      by_cases hd : d = ".."
      · subst hd
        exact ⟨by simp [Path.push], h⟩
      · simpa [Path.push, hd] using h.2
  · rw [push_of_ne h1 h2]
    exact ⟨push_of_ne h1 h2, h⟩

theorem Settled.foldl_push (h : Settled absolute done) (cs : List String) :
    Settled absolute (cs.foldl (Path.push absolute) done) := by
  induction cs generalizing done with
  | nil => exact h
  | cons c cs ih => exact ih (h.push c)

/-- Settled components are left as they are. -/
theorem Settled.foldl_reverse (h : Settled absolute done) :
    done.reverse.foldl (Path.push absolute) [] = done := by
  induction done with
  | nil => rfl
  | cons c done ih => rw [List.reverse_cons, List.foldl_append, ih h.2, List.foldl_cons, h.1,
      List.foldl_nil]

theorem Settled.suffix {rest : List String} (h : Settled absolute done) (hs : rest <:+ done) :
    Settled absolute rest := by
  obtain ⟨before, rfl⟩ := hs
  induction before with
  | nil => exact h
  | cons c before ih => exact ih h.2

theorem mem_push {c d : String} (h : d ∈ push absolute done c) :
    d ∈ done ∨ d = c ∨ d = ".." := by
  by_cases h1 : c = "."
  · left
    simpa [push, h1] using h
  by_cases h2 : c = ".."
  · subst h2
    cases done with
    | nil => cases absolute <;> simp_all [push]
    | cons e rest => by_cases he : e = ".." <;> simp_all [push]
  · rw [push_of_ne h1 h2] at h
    rcases List.mem_cons.1 h with h | h
    · exact Or.inr (Or.inl h)
    · exact Or.inl h

theorem mem_foldl_push {cs : List String} {d : String}
    (h : d ∈ cs.foldl (push absolute) done) : d ∈ done ∨ d ∈ cs ∨ d = ".." := by
  induction cs generalizing done with
  | nil => exact Or.inl h
  | cons c cs ih =>
    rcases ih h with h | h | h
    · rcases mem_push h with h | rfl | h
      · exact Or.inl h
      · exact Or.inr (Or.inl List.mem_cons_self)
      · exact Or.inr (Or.inr h)
    · exact Or.inr (Or.inl (List.mem_cons_of_mem _ h))
    · exact Or.inr (Or.inr h)

/-- A way back does not stay behind anything else. -/
theorem push_dots_ne {d : String} (hd : d ≠ "..") :
    push absolute (d :: done) ".." ≠ ".." :: d :: done := by
  intro hp
  simp only [push, String.reduceEq, if_false, if_true, if_neg hd] at hp
  have hlen := congrArg List.length hp
  simp at hlen
  omega

/-- No way back is left in a settled path from the root. -/
theorem Settled.not_mem_of_absolute (h : Settled true done) : ".." ∉ done := by
  induction done with
  | nil => exact List.not_mem_nil
  | cons c done ih =>
    have hih := ih h.2
    rintro hc
    rcases List.mem_cons.1 hc with rfl | hc
    · have hp := h.1
      cases done with
      | nil => simp [Path.push] at hp
      | cons d rest => exact push_dots_ne (fun hd => hih (hd ▸ List.mem_cons_self)) hp
    · exact hih hc

/-- Before a way back that is left there are only ways back. -/
theorem Settled.eq_dots {c : String} (h : Settled absolute (".." :: done)) (hc : c ∈ done) :
    c = ".." := by
  induction done with
  | nil => cases hc
  | cons d rest ih =>
    have hd : d = ".." := by
      by_contra hd
      exact push_dots_ne hd h.1
    rcases List.mem_cons.1 hc with rfl | hc
    · exact hd
    · exact ih (hd ▸ h.2) hc

/-! ### Clean paths -/

/-- What is left of the components of a path, last one first. -/
def trail (path : String) : List String :=
  (components path).foldl (push (isAbsolute path)) []

theorem settled_trail (path : String) : Settled (isAbsolute path) (trail path) := by
  have h0 : Settled (isAbsolute path) [] := trivial
  exact h0.foldl_push _

theorem isPiece_of_mem_trail {path c : String} (h : c ∈ trail path) : IsPiece c := by
  rcases mem_foldl_push h with h | h | rfl
  · cases h
  · exact isPiece_of_mem_components h
  · exact isPiece_dots

theorem isPiece_of_mem_reverse_trail (path : String) : ∀ c ∈ (trail path).reverse, IsPiece c :=
  fun _ hc => isPiece_of_mem_trail (List.mem_reverse.1 hc)

theorem intercalate_eq_empty_iff {parts : List String} (h : ∀ c ∈ parts, IsPiece c) :
    String.intercalate "/" parts = "" ↔ parts = [] := by
  constructor
  · intro h0
    rw [← components_intercalate h, h0, components_empty]
  · rintro rfl
    decide

theorem clean_eq (path : String) : clean path =
    if isAbsolute path then "/" ++ String.intercalate "/" (trail path).reverse
    else if trail path = [] then "." else String.intercalate "/" (trail path).reverse := by
  have h0 := intercalate_eq_empty_iff (isPiece_of_mem_reverse_trail path)
  rw [List.reverse_eq_nil_iff] at h0
  unfold clean
  simp only [← trail.eq_def, h0]

theorem clean_ne_empty (path : String) : clean path ≠ "" := by
  rw [clean_eq]
  split_ifs with h1 h2
  · simp
  · decide
  · rw [Ne, intercalate_eq_empty_iff (isPiece_of_mem_reverse_trail path), List.reverse_eq_nil_iff]
    exact h2

theorem isAbsolute_clean (path : String) : isAbsolute (clean path) = isAbsolute path := by
  rw [clean_eq]
  split_ifs with h1 h2
  · rw [isAbsolute_append (by decide), h1]
    decide
  · rw [Bool.not_eq_true] at h1
    rw [h1]
    decide
  · rw [Bool.not_eq_true] at h1
    rw [h1]
    obtain ⟨c, cs, hcs⟩ := List.exists_cons_of_ne_nil fun h => h2 (List.reverse_eq_nil_iff.1 h)
    have hc : IsPiece c := isPiece_of_mem_reverse_trail path c (hcs ▸ List.mem_cons_self)
    rw [hcs]
    cases cs with
    | nil => simpa using hc.isAbsolute
    | cons d cs =>
      rw [String.intercalate_cons_cons, String.append_assoc, isAbsolute_append hc.1]
      exact hc.isAbsolute

theorem components_clean (path : String) : components (clean path) =
    if isAbsolute path = false ∧ trail path = [] then ["."] else (trail path).reverse := by
  have hparts := components_intercalate (isPiece_of_mem_reverse_trail path)
  have hslash : ∀ s : String, components ("/" ++ s) = components s := by
    intro s
    have h := components_append "" s
    rwa [String.empty_append, components_empty, List.nil_append] at h
  rw [clean_eq]
  split_ifs with h1 h2 h3 h4 h5
  · simp_all
  · rw [hslash, hparts]
  · decide
  · simp_all
  · simp_all
  · exact hparts

/-- Cleaning once is enough. -/
theorem trail_clean (path : String) : trail (clean path) = trail path := by
  rw [trail, isAbsolute_clean, components_clean]
  split_ifs with h
  · rw [h.2]
    rfl
  · exact (settled_trail path).foldl_reverse

theorem clean_clean (path : String) : clean (clean path) = clean path := by
  rw [clean_eq (clean path), trail_clean, isAbsolute_clean, ← clean_eq]

/-! ### A file named below a path -/

/-- A name that a file can have: a component that leads further. -/
structure IsName (name : String) : Prop where
  piece : IsPiece name
  ne_dot : name ≠ "."
  ne_dots : name ≠ ".."

variable {path name : String}

/-- The first character tells a name from a dot and from two dots. -/
theorem isName_of_head {c : Char} (h : name.toList.head? = some c) (hc : c ≠ '.')
    (hslash : '/' ∉ name.toList) : IsName name := by
  have hne : ∀ other : String, other.toList.head? ≠ some c → name ≠ other := by
    rintro other ho rfl
    exact ho h
  exact ⟨⟨hne "" (by simp), hslash⟩, hne "." (by simpa using hc.symm),
    hne ".." (by simpa using hc.symm)⟩

theorem join_pair (hp : path ≠ "") (hn : name ≠ "") :
    join [path, name] = clean (path ++ "/" ++ name) := by
  simp [join, hp, hn, String.append_assoc]

theorem isAbsolute_join (hp : path ≠ "") (hn : IsName name) :
    isAbsolute (join [path, name]) = isAbsolute path := by
  rw [join_pair hp hn.piece.1, isAbsolute_clean, String.append_assoc, isAbsolute_append hp]

theorem trail_below (hp : path ≠ "") (hn : IsName name) :
    trail (path ++ "/" ++ name) = name :: trail path := by
  have habs : isAbsolute (path ++ "/" ++ name) = isAbsolute path := by
    rw [String.append_assoc, isAbsolute_append hp]
  rw [trail, habs, components_append, hn.piece.components, List.foldl_append]
  exact push_of_ne hn.ne_dot hn.ne_dots

theorem trail_join (hp : path ≠ "") (hn : IsName name) :
    trail (join [path, name]) = name :: trail path := by
  rw [join_pair hp hn.piece.1, trail_clean, trail_below hp hn]

theorem join_ne_empty (hp : path ≠ "") (hn : name ≠ "") : join [path, name] ≠ "" := by
  rw [join_pair hp hn]
  exact clean_ne_empty _

/-- The shortest path depends on where the path starts and where it leads. -/
theorem clean_congr {other : String} (habs : isAbsolute path = isAbsolute other)
    (htrail : trail path = trail other) : clean path = clean other := by
  rw [clean_eq, clean_eq, habs, htrail]

/-- A file two steps below a path is a file below a directory below the path. -/
theorem join_triple {sub : String} (hp : path ≠ "") (hs : IsName sub) (hn : IsName name) :
    join [path, sub, name] = join [join [path, sub], name] := by
  have hsub := join_ne_empty hp hs.piece.1
  have hall : join [path, sub, name] = clean (path ++ "/" ++ sub ++ "/" ++ name) := by
    simp [join, hp, hs.piece.1, hn.piece.1, String.append_assoc]
  have hpath : path ++ "/" ++ sub ≠ "" := by simp [hp]
  have habs : isAbsolute (path ++ "/" ++ sub) = isAbsolute (join [path, sub]) := by
    rw [isAbsolute_join hp hs, String.append_assoc, isAbsolute_append hp]
  have htrail : trail (path ++ "/" ++ sub) = trail (join [path, sub]) := by
    rw [join_pair hp hs.piece.1, trail_clean]
  rw [hall, join_pair hsub hn.piece.1]
  refine clean_congr ?_ ?_
  · rw [String.append_assoc, isAbsolute_append hpath, habs, String.append_assoc,
      isAbsolute_append hsub]
  · rw [trail_below hpath hn, trail_below hsub hn, htrail]

/-- What stands before the name of a file below a path. -/
def beforeName (path : String) : String :=
  (if isAbsolute path then "/" else "") ++
    (if trail path = [] then "" else String.intercalate "/" (trail path).reverse ++ "/")

theorem join_eq (hp : path ≠ "") (hn : IsName name) :
    join [path, name] = beforeName path ++ name := by
  have hclean : clean (join [path, name]) = join [path, name] := by
    rw [join_pair hp hn.piece.1, clean_clean]
  rw [← hclean, clean_eq, isAbsolute_join hp hn, trail_join hp hn, List.reverse_cons, beforeName]
  by_cases ht : trail path = []
  · cases isAbsolute path <;> simp [ht]
  · rw [Text.intercalate_concat fun h => ht (List.reverse_eq_nil_iff.1 h)]
    cases isAbsolute path <;> simp [ht, String.append_assoc]

/-- A clean path is the place to stay or what stands before the name, perhaps without a slash. -/
theorem clean_eq_dot_or (path : String) :
    clean path = "." ∨ (clean path).toList <+: (beforeName path).toList := by
  rw [clean_eq, beforeName]
  by_cases ht : trail path = []
  · cases isAbsolute path
    · simp [ht]
    · right
      simp [ht]
  · right
    cases isAbsolute path <;> simp [ht]

theorem components_beforeName (path : String) :
    components (beforeName path) = (trail path).reverse := by
  have hparts := components_intercalate (isPiece_of_mem_reverse_trail path)
  have hslash := components_append "" (String.intercalate "/" (trail path).reverse ++ "/")
  have hend := components_append (String.intercalate "/" (trail path).reverse) ""
  rw [String.empty_append, components_empty, List.nil_append] at hslash
  rw [String.append_empty, components_empty, List.append_nil, hparts] at hend
  rw [beforeName]
  by_cases ht : trail path = []
  · cases isAbsolute path
    · simp [ht]
    · simp [ht]
      decide
  · cases isAbsolute path
    · simpa [ht] using hend
    · simpa [ht] using hslash.trans hend

theorem isAbsolute_beforeName (path : String) :
    isAbsolute (beforeName path) = isAbsolute path := by
  have hclean := isAbsolute_clean path
  rw [clean_eq] at hclean
  cases habs : isAbsolute path with
  | true =>
    rw [beforeName, habs, if_pos rfl, isAbsolute_append (by decide)]
    decide
  | false =>
    rw [habs, if_neg Bool.false_ne_true] at hclean
    rw [beforeName, habs, if_neg Bool.false_ne_true, String.empty_append]
    by_cases ht : trail path = []
    · rw [if_pos ht]
      decide
    · rw [if_neg ht] at hclean
      have hne : String.intercalate "/" (trail path).reverse ≠ "" := by
        rw [Ne, intercalate_eq_empty_iff (isPiece_of_mem_reverse_trail path),
          List.reverse_eq_nil_iff]
        exact ht
      rw [if_neg ht, isAbsolute_append hne, hclean]

theorem beforeName_ends (path : String) :
    beforeName path = "" ∨ (beforeName path).toList.getLast? = some '/' := by
  rw [beforeName]
  by_cases ht : trail path = []
  · cases isAbsolute path
    · simp [ht]
    · right
      simp [ht]
  · right
    cases isAbsolute path <;> simp [ht, List.getLast?_cons]

theorem baseChars_append {front : String} (hn : '/' ∉ name.toList)
    (hf : front = "" ∨ front.toList.getLast? = some '/') :
    baseChars (front ++ name) = name.toList := by
  have hall : ∀ c ∈ name.toList.reverse, decide (c ≠ '/') = true := by
    intro c hc
    rw [decide_eq_true_eq]
    rintro rfl
    exact hn (List.mem_reverse.1 hc)
  have hstop : front.toList.reverse.takeWhile (· ≠ '/') = [] := by
    rcases hf with rfl | hf
    · rfl
    · rw [← List.head?_reverse] at hf
      obtain ⟨rest, hrest⟩ := List.head?_eq_some_iff.1 hf
      simp [hrest]
  rw [baseChars, String.toList_append, List.reverse_append, List.takeWhile_append_of_pos hall,
    hstop, List.append_nil, List.reverse_reverse]

/-- The directory of a file named below a path is the clean path. -/
theorem dir_join (hp : path ≠ "") (hn : IsName name) : dir (join [path, name]) = clean path := by
  have hbase := baseChars_append hn.piece.2 (beforeName_ends path)
  have htrail : trail (beforeName path) = trail path := by
    rw [trail, isAbsolute_beforeName, components_beforeName]
    exact (settled_trail path).foldl_reverse
  rw [dir, join_eq hp hn, hbase, String.toList_append, List.length_append, Nat.add_sub_cancel,
    List.take_left, String.ofList_toList, clean_eq, htrail, isAbsolute_beforeName, ← clean_eq]

/-! ### The directories that a path leads through -/

theorem mem_frontsFrom {before rest : List Char} {front : String}
    (h : front ∈ frontsFrom before rest) :
    ∃ taken left, rest = taken ++ left ∧ taken ≠ [] ∧
      front = String.ofList (before.reverse ++ taken) ∧
      (left = [] ∨ taken.getLast? = some '/') := by
  fun_induction frontsFrom before rest with
  | case1 => cases h
  | case2 before c =>
    rw [List.mem_singleton] at h
    exact ⟨[c], [], rfl, by simp, by simp [h], Or.inl rfl⟩
  | case3 before c d rest more hc ih =>
    rcases List.mem_cons.1 h with rfl | h
    · refine ⟨[c], d :: rest, rfl, by simp, by simp, Or.inr ?_⟩
      simp only [Bool.and_eq_true, decide_eq_true_eq] at hc
      simp [hc.1]
    · obtain ⟨taken, left, hrest, hne, hf, hend⟩ := ih h
      refine ⟨c :: taken, left, by rw [hrest, List.cons_append], by simp, ?_, ?_⟩
      · simpa using hf
      · rw [List.getLast?_cons_of_ne_nil hne]
        exact hend
  | case4 before c d rest more hc ih =>
    obtain ⟨taken, left, hrest, hne, hf, hend⟩ := ih h
    refine ⟨c :: taken, left, by rw [hrest, List.cons_append], by simp, ?_, ?_⟩
    · simpa using hf
    · rw [List.getLast?_cons_of_ne_nil hne]
      exact hend

/-- A directory that a path leads through is a nonempty beginning of the path, and its components
are the first of those of the path. -/
theorem front_of_mem_fronts {front : String} (h : front ∈ fronts path) :
    front ≠ "" ∧ front.toList <+: path.toList ∧ isAbsolute front = isAbsolute path ∧
      components front <+: components path := by
  obtain ⟨taken, left, hpath, hne, rfl, hend⟩ := mem_frontsFrom h
  rw [List.reverse_nil, List.nil_append]
  have hfront : String.ofList taken ≠ "" := by
    rw [Ne, ← String.toList_inj, String.toList_ofList]
    exact hne
  have hsplit : path = String.ofList taken ++ String.ofList left := by
    rw [← String.toList_inj, String.toList_append, String.toList_ofList, String.toList_ofList,
      hpath]
  refine ⟨hfront, ⟨left, by rw [String.toList_ofList, hpath]⟩, ?_, ?_⟩
  · rw [hsplit, isAbsolute_append hfront]
  · rcases hend with rfl | hend
    · rw [hsplit]
      simp
    · obtain ⟨u, rfl⟩ := List.getLast?_eq_some_iff.1 hend
      have hu : String.ofList (u ++ ['/']) = String.ofList u ++ "/" := by
        rw [← String.toList_inj]
        simp
      have hfirst := components_append (String.ofList u) ""
      rw [String.append_empty, components_empty, List.append_nil] at hfirst
      rw [hsplit, hu, components_append, hfirst]
      exact List.prefix_append _ _

theorem mem_frontsFrom_self (before : List Char) {rest : List Char} (h : rest ≠ []) :
    String.ofList (before.reverse ++ rest) ∈ frontsFrom before rest := by
  fun_induction frontsFrom before rest with
  | case1 => exact absurd rfl h
  | case2 before c => simp
  | case3 before c d rest more hc ih =>
    refine List.mem_cons_of_mem _ ?_
    simpa using ih (by simp)
  | case4 before c d rest more hc ih => simpa using ih (by simp)

/-- A path leads through itself. -/
theorem mem_fronts_self (hp : path ≠ "") : path ∈ fronts path := by
  have hne : path.toList ≠ [] := by
    rw [Ne, ← String.toList_inj] at hp
    exact hp
  simpa [fronts] using mem_frontsFrom_self [] hne

end Path
end ApiDiagrams
