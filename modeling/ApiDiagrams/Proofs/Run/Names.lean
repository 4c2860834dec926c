import ApiDiagrams.Proofs.Dot.Naming
import ApiDiagrams.Proofs.Files.Tree
import ApiDiagrams.Proofs.Run.Planning

/-!
# The names of a run's files

The diagrams of a run are built in one context, so their names differ. Every title has a blank in
it, hence every name an underscore, and no diagram is called `index`.

* `Diagram.Named`: what the name of a diagram is in the context that it was built in;
* `Diagram.Builder.named_build`: every diagram is named so;
* `names_drawAll`: the names of all diagrams of a run;
* `IsFileName`: a name that a file of a directory can have;
* `fileName_injective`: the name and the ending of a file.
-/

namespace ApiDiagrams

/-! ### One diagram -/

namespace Dot

/-- An underscore near the front of a folded title stays. -/
theorem underscore_mem_uidBase {a b : List Char} (h : '_' ∈ a.map uidChar)
    (hl : a.length < maxUidLength) : '_' ∈ uidBase (a ++ b) := by
  have hne : (a ++ b).map uidChar ≠ [] := by
    intro h0
    rw [List.map_append, List.append_eq_nil_iff] at h0
    rw [h0.1] at h
    cases h
  have hmem : '_' ∈ (a.map uidChar).take maxUidLength := by
    rwa [List.take_of_length_le (by rw [List.length_map]; omega)]
  simp only [uidBase, hne, if_false]
  split_ifs
  · rw [List.map_append, maxUidLength, List.take_succ_cons, List.take_append]
    refine List.mem_cons_of_mem _ (List.mem_append_left _ ?_)
    rw [List.take_of_length_le]
    · exact h
    · rw [List.length_map]
      exact Nat.lt_succ_iff.1 hl
  · rw [List.map_append, List.take_append]
    exact List.mem_append_left _ hmem

end Dot

namespace Diagram

/-- The diagram has a name of its own in the context, which is reserved after it. -/
structure Named (c : Dot.Context) (g : Dot.Graph) (c' : Dot.Context) : Prop where
  fresh : g.uid.toList ∉ c.uids
  reserved : c'.uids = g.uid.toList :: c.uids
  legal : Dot.IsUid g.uid.toList
  underscore : '_' ∈ g.uid.toList

theorem Named.congr {c c' c'' : Dot.Context} {g g' : Dot.Graph} (h : Named c g c')
    (hg : g'.uid = g.uid) (hc : c''.uids = c'.uids) : Named c g' c'' := by
  obtain ⟨h1, h2, h3, h4⟩ := h
  rw [← hg] at h1 h2 h3 h4
  exact ⟨h1, hc.trans h2, h3, h4⟩

theorem named_newGraph (c : Dot.Context) {front : String} (rest : String)
    (h : '_' ∈ (Text.skeleton front.toList).map Dot.uidChar)
    (hl : (Text.skeleton front.toList).length < Dot.maxUidLength) :
    Named c (c.newGraph (front ++ rest)).1 (c.newGraph (front ++ rest)).2 := by
  have hbase : '_' ∈ Dot.uidBase (Text.skeleton (front ++ rest).toList) := by
    rw [String.toList_append, Text.skeleton, List.flatMap_append]
    exact Dot.underscore_mem_uidBase h hl
  have huid : (c.newGraph (front ++ rest)).1.uid.toList =
      c.freeUid (Dot.uidBase (Text.skeleton (front ++ rest).toList)) := by
    simp [Dot.Context.newGraph, Dot.Context.reserve]
  have hname := Dot.Context.nameFor_freeUid c
    (Dot.uidBase (Text.skeleton (front ++ rest).toList))
  refine ⟨?_, ?_, ?_, ?_⟩
  · rw [huid]
    exact hname.not_mem
  · rw [huid]
    rfl
  · rw [huid]
    exact Dot.Context.isUid_freeUid c (Dot.isUid_uidBase _)
  · rw [huid]
    obtain ⟨-, heq⟩ | ⟨-, n, -, heq, -⟩ := hname
    · rwa [heq]
    · rw [heq]
      simp [Dot.Context.candidate]

theorem addStyledNodes_keeps (style : EntityId → NodeStyle) (is : List EntityId) (g : Dot.Graph)
    (c : Dot.Context) : (addStyledNodes style is g c).2.1.uid = g.uid ∧
      (addStyledNodes style is g c).2.2.uids = c.uids := by
  induction is generalizing g c with
  | nil => exact ⟨rfl, rfl⟩
  | cons i is ih => exact ih _ _

theorem uid_addEdges (table : NodeTable) (pairs : List (EntityId × EntityId)) (attrs : Dot.Attrs)
    (g : Dot.Graph) : (addEdges table pairs attrs g).uid = g.uid := by
  unfold addEdges
  induction (edgesBetween table pairs).mergeSort edgeLe generalizing g with
  | nil => rfl
  | cons e es ih => exact ih _

theorem uid_withDirection (g : Dot.Graph) (dir default_ : String) :
    (withDirection g dir default_).uid = g.uid := by
  simp only [withDirection]
  split_ifs <;> rfl

/-- Nodes and edges do not change the name of a graph, nor do its defaults and its body. -/
theorem Named.drawn {c c' : Dot.Context} {g g' : Dot.Graph} (h : Named c g c')
    (hg : g'.uid = g.uid) (style : EntityId → NodeStyle) (is : List EntityId) (table : NodeTable)
    (pairs : List (EntityId × EntityId)) (attrs : Dot.Attrs) :
    Named c (addEdges table pairs attrs (addStyledNodes style is g' c').2.1)
      (addStyledNodes style is g' c').2.2 := by
  obtain ⟨hu, hc⟩ := addStyledNodes_keeps style is g' c'
  exact h.congr ((uid_addEdges _ _ _ _).trans (hu.trans hg)) hc

namespace Builder

variable (b : Builder) (targets : List EntityId) (opts : Options) (c : Dot.Context)

theorem named_packageTree :
    Named c (b.packageTree targets opts c).1 (b.packageTree targets opts c).2.1 := by
  have hnew := named_newGraph c (b.titleNames targets opts.current)
    (by decide +kernel : '_' ∈ (Text.skeleton "Package Tree for ".toList).map Dot.uidChar)
    (by decide +kernel)
  simp only [packageTree]
  by_cases hn : ((opts.style = "" || opts.style = umlStyle) && b.htmlLabels) = true
  · rw [if_pos hn]
    obtain ⟨hu, hc⟩ := addStyledNodes_keeps (b.packageStyle (opts.current.map b.index.resolve))
      (targets.filter fun p => !b.isDominated targets p) _ _
    exact hnew.congr hu hc
  · rw [if_neg hn]
    refine hnew.drawn ?_ _ _ _ _ _
    exact uid_withDirection _ _ _

theorem named_classTree :
    Named c (b.classTree targets opts c).1 (b.classTree targets opts c).2 := by
  have hnew := named_newGraph c (b.titleNames targets opts.current)
    (by decide +kernel : '_' ∈ (Text.skeleton "Class Hierarchy for ".toList).map Dot.uidChar)
    (by decide +kernel)
  refine hnew.drawn ?_ _ _ _ _ _
  exact uid_withDirection _ _ _

theorem named_importGraph :
    Named c (b.importGraph targets opts c).1 (b.importGraph targets opts c).2 := by
  have hnew := named_newGraph c ""
    (by decide +kernel : '_' ∈ (Text.skeleton "Import Graph".toList).map Dot.uidChar)
    (by decide +kernel)
  refine hnew.drawn ?_ _ _ _ _ _
  exact uid_withDirection _ _ _

theorem named_callGraph :
    Named c (b.callGraph targets opts c).1 (b.callGraph targets opts c).2.1 := by
  simp only [callGraph]
  split_ifs
  · exact named_newGraph c ""
      (by decide +kernel : '_' ∈ (Text.skeleton "Call Graph".toList).map Dot.uidChar)
      (by decide +kernel)
  · have hnew := named_newGraph c (b.titleNames targets opts.current)
      (by decide +kernel : '_' ∈ (Text.skeleton "Call Graph for ".toList).map Dot.uidChar)
      (by decide +kernel)
    refine hnew.drawn ?_ _ _ _ _ _
    exact uid_withDirection _ _ _

theorem named_buildKind (kind : Kind) :
    Named c (b.buildKind kind targets opts c).graph (b.buildKind kind targets opts c).context := by
  cases kind with
  | packageTree => exact b.named_packageTree targets opts c
  | classTree => exact b.named_classTree targets opts c
  | importGraph => exact b.named_importGraph targets opts c
  | callGraph => exact b.named_callGraph targets opts c

theorem build_eq_ok_iff {kind : String} {built : Built} :
    b.build kind targets opts c = .ok built ↔ Validation.checkDirection opts.dir = .ok () ∧
      ∃ k, Kind.ofText? kind = some k ∧ built = b.buildKind k targets opts c := by
  unfold build
  rw [bind_eq_ok_iff]
  constructor
  · rintro ⟨⟨⟩, hdir, h⟩
    cases hk : Kind.ofText? kind with
    | none =>
      rw [hk] at h
      cases h
    | some k =>
      rw [hk] at h
      cases h
      exact ⟨hdir, k, rfl, rfl⟩
  · rintro ⟨hdir, k, hk, rfl⟩
    refine ⟨(), hdir, ?_⟩
    rw [hk]
    rfl

end Builder
end Diagram

/-! ### All diagrams -/

namespace Run

theorem directives_drawAll {b : Diagram.Builder} {linker : Dot.Linker} {c : Dot.Context}
    {jobs : List Job} {graphs : List (Directive × Dot.Graph)}
    (h : drawAll b linker c jobs = .ok graphs) : graphs.map Prod.fst = jobs.map Job.directive := by
  induction jobs generalizing c graphs with
  | nil =>
    cases h
    rfl
  | cons job jobs ih =>
    rw [drawAll, bind_eq_ok_iff] at h
    obtain ⟨built, -, h⟩ := h
    rw [bind_eq_ok_iff] at h
    obtain ⟨more, hmore, h⟩ := h
    cases h
    rw [List.map_cons, List.map_cons, ih hmore]

/-- Names of graphs: distinct, and each a name with an underscore. -/
structure Names (graphs : List Dot.Graph) : Prop where
  distinct : (graphs.map (·.uid)).Nodup
  legal : ∀ g ∈ graphs, Dot.IsUid g.uid.toList
  underscore : ∀ g ∈ graphs, '_' ∈ g.uid.toList

theorem names_drawAll_and_fresh {b : Diagram.Builder} {linker : Dot.Linker} {c : Dot.Context}
    {jobs : List Job} {graphs : List (Directive × Dot.Graph)}
    (h : drawAll b linker c jobs = .ok graphs) :
    Names (graphs.map Prod.snd) ∧ ∀ g ∈ graphs.map Prod.snd, g.uid.toList ∉ c.uids := by
  induction jobs generalizing c graphs with
  | nil =>
    cases h
    exact ⟨⟨List.nodup_nil, by simp, by simp⟩, by simp⟩
  | cons job jobs ih =>
    rw [drawAll, bind_eq_ok_iff] at h
    obtain ⟨built, hbuilt, h⟩ := h
    rw [bind_eq_ok_iff] at h
    obtain ⟨more, hmore, h⟩ := h
    cases h
    obtain ⟨-, k, -, rfl⟩ := (b.build_eq_ok_iff _ _ _).1 hbuilt
    have hfirst := b.named_buildKind job.targets job.directive.options c k
    obtain ⟨hnames, hfresh⟩ := ih hmore
    -- the context after the first diagram has reserved its name, and keeps those before
    rw [hfirst.reserved] at hfresh
    rw [List.map_cons]
    refine ⟨⟨?_, ?_, ?_⟩, ?_⟩
    · rw [List.map_cons, List.nodup_cons]
      refine ⟨fun hmem => ?_, hnames.distinct⟩
      obtain ⟨g, hg, heq⟩ := List.mem_map.1 hmem
      have := hfresh g hg
      rw [heq] at this
      exact this List.mem_cons_self
    · rintro g (_ | ⟨_, hg⟩)
      · exact hfirst.legal
      · exact hnames.legal g hg
    · rintro g (_ | ⟨_, hg⟩)
      · exact hfirst.underscore
      · exact hnames.underscore g hg
    · rintro g (_ | ⟨_, hg⟩)
      · exact hfirst.fresh
      · exact fun hmem => hfresh g hg (List.mem_cons_of_mem _ hmem)

theorem names_drawAll {b : Diagram.Builder} {linker : Dot.Linker} {c : Dot.Context}
    {jobs : List Job} {graphs : List (Directive × Dot.Graph)}
    (h : drawAll b linker c jobs = .ok graphs) : Names (graphs.map Prod.snd) :=
  (names_drawAll_and_fresh h).1

end Run

/-! ### Files of a directory -/

/-- A name with a dot that a file of a directory can have. Nothing of such a name stands in every
tree. -/
structure IsFileName (name : String) : Prop extends Path.IsName name where
  dotted : '.' ∈ name.toList

theorem IsFileName.standing? {name : String} (h : IsFileName name) (p : Place) :
    FileTree.standing? (p ++ [name]) = none := by
  have hne : ∀ c : String, '.' ∉ c.toList → name ≠ c := by
    rintro c hc rfl
    exact hc h.dotted
  refine FileTree.standing?_concat ?_ p
  simp only [List.mem_cons, List.not_mem_nil, or_false, not_or]
  exact ⟨h.ne_dots, hne "/" (by decide), hne "dev" (by decide), hne "tmp" (by decide),
    hne "null" (by decide)⟩

/-- The name of a file with an ending. -/
def fileName (stem ending : String) : String := stem ++ "." ++ ending

theorem toList_fileName (stem ending : String) :
    (fileName stem ending).toList = stem.toList ++ '.' :: ending.toList := by
  simp [fileName]

theorem isFileName_fileName {stem ending : String} (hs : Dot.IsUid stem.toList)
    (he : '/' ∉ ending.toList) : IsFileName (fileName stem ending) := by
  obtain ⟨c, cs, hcs⟩ := List.exists_cons_of_ne_nil hs.ne_nil
  have hc : c ≠ '.' := by
    rintro rfl
    exact absurd (hs.chars '.' (hcs ▸ List.mem_cons_self)) (by decide)
  have hslash : '/' ∉ stem.toList := fun h => absurd (hs.chars '/' h) (by decide)
  have hhead : (fileName stem ending).toList.head? = some c := by
    rw [toList_fileName, hcs]
    rfl
  refine ⟨Path.isName_of_head hhead hc ?_, ?_⟩
  · rw [toList_fileName]
    simp [hslash, he]
  · rw [toList_fileName]
    simp

theorem fileName_injective {a b e e' : String} (ha : Dot.IsUid a.toList) (hb : Dot.IsUid b.toList)
    (h : fileName a e = fileName b e') : a = b ∧ e = e' := by
  have hdot : ∀ u : List Char, Dot.IsUid u → '.' ∉ u := fun u hu hmem =>
    absurd (hu.chars '.' hmem) (by decide)
  have hlist : a.toList ++ '.' :: e.toList = b.toList ++ '.' :: e'.toList := by
    rw [← toList_fileName, ← toList_fileName, h]
  have hab : a.toList = b.toList := by
    have hsplit := congrArg (Text.splitOn '.') hlist
    rw [Text.splitOn_append (hdot _ ha), Text.splitOn_append (hdot _ hb)] at hsplit
    exact (List.cons.inj hsplit).1
  rw [hab, List.append_cancel_left_eq, List.cons.injEq] at hlist
  exact ⟨String.toList_inj.1 hab, String.toList_inj.1 hlist.2⟩

theorem exists_mem_splitOn {sep c : Char} {text : List Char} (h : c ∈ text) (hc : c ≠ sep) :
    ∃ piece ∈ Text.splitOn sep text, c ∈ piece := by
  induction text with
  | nil => cases h
  | cons d rest ih =>
    obtain ⟨p, ps, hs⟩ := List.exists_cons_of_ne_nil (Text.splitOn_ne_nil sep rest)
    by_cases hd : d = sep
    · rcases List.mem_cons.1 h with rfl | h
      · exact absurd hd hc
      · obtain ⟨piece, hp, hmem⟩ := ih h
        exact ⟨piece, by simp [Text.splitOn, hd, hp], hmem⟩
    · simp only [Text.splitOn, hd, if_false, hs]
      rcases List.mem_cons.1 h with rfl | h
      · exact ⟨c :: p, List.mem_cons_self, List.mem_cons_self⟩
      · obtain ⟨piece, hp, hmem⟩ := ih h
        rw [hs] at hp
        rcases List.mem_cons.1 hp with rfl | hp
        · exact ⟨d :: piece, List.mem_cons_self, List.mem_cons_of_mem _ hmem⟩
        · exact ⟨piece, List.mem_cons_of_mem _ hp, hmem⟩

/-- No format leads to another directory. -/
theorem slash_not_mem_of_checkFormat {format : String}
    (h : Validation.checkFormat format = .ok ()) : '/' ∉ format.toList := by
  have htext : (Text.Raw.ofString format).text? = some format := Text.Raw.text?_eq_some_iff.2 rfl
  unfold Validation.checkFormat at h
  rw [htext, Option.any_some] at h
  intro hmem
  by_cases hf : Validation.isFormat format.toList = true
  · obtain ⟨piece, hp, hslash⟩ := exists_mem_splitOn hmem (by decide : '/' ≠ ':')
    simp only [Validation.isFormat, Bool.and_eq_true, List.all_eq_true] at hf
    have hchar := (hf.1 piece hp).2 '/' hslash
    exact absurd hchar (by decide)
  · rw [Bool.not_eq_true] at hf
    simp only [hf, Bool.not_false, if_true] at h
    split_ifs at h

end ApiDiagrams
