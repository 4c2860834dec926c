import ApiDiagrams.Pages
import ApiDiagrams.Proofs.Diagram.Plan
import ApiDiagrams.Proofs.Dot.Linking
import ApiDiagrams.Proofs.Model.Consistency
import ApiDiagrams.Proofs.Passes
import ApiDiagrams.Proofs.Run.Names

/-!
# The addresses of nodes

A diagram is built with the addresses of pages in place, and linked again before it is written.
Linking takes what stands between angle brackets for a name to be looked up, and takes the `href`
away when there is no page. No address that a diagram is built with ends in an angle bracket: the
page of an entity ends in `html` or in an identifier, and the address for no page in a semicolon.

* `Pages.getLast?_ne_of_urlFor`: no page is taken for a placeholder;
* `Builder.Depicts`: the node of an entity;
* `Builder.addressed_of_build`: every node leads to the page of its entity, and linking a diagram
  changes nothing.
-/

namespace ApiDiagrams

namespace Dot

/-- A name that is not among the pairs has no value. -/
theorem Attrs.get?_ofList_eq_none {l : List (String × String)} {key : String}
    (h : l.all (fun e => e.1 ≠ key) = true) : (ofList l).get? key = none := by
  unfold ofList
  suffices hfold : ∀ a : Attrs, a.get? key = none →
      (l.foldl (fun a (x : String × String) => a.insert x.1 x.2) a).get? key = none from
    hfold empty rfl
  induction l with
  | nil => exact fun a ha => ha
  | cons x l ih =>
    simp only [List.all_cons, Bool.and_eq_true, decide_eq_true_eq] at h
    intro a ha
    refine ih h.2 _ ?_
    rw [get?_insert, if_neg (Ne.symm h.1), ha]

end Dot

/-! ### Pages -/

namespace Pages

/-- A page ends in `html` or in an identifier. -/
theorem getLast?_ne_of_pageFrom {ix : Index} {fuel : ℕ} {e : Entity} {page : String}
    (hlast : '>' ∉ e.name.last.toList) (h : pageFrom ix fuel e = some page) :
    page ≠ "" ∧ ∀ base : String, (base ++ page).toList.getLast? ≠ some '>' := by
  -- all that matters is what the address ends in
  have hends : ∀ front back : String, back ≠ "" → '>' ∉ back.toList → page = front ++ back →
      page ≠ "" ∧ ∀ base : String, (base ++ page).toList.getLast? ≠ some '>' := by
    rintro front back hne hback rfl
    refine ⟨by simp [hne], fun base hget => hback ?_⟩
    have hne' : back.toList ≠ [] := by simpa using hne
    rw [String.toList_append, String.toList_append, ← List.append_assoc,
      List.getLast?_append_of_ne_nil _ hne'] at hget
    exact List.mem_of_getLast? hget
  unfold pageFrom at h
  split at h
  · exact hends _ "-module.html" (by decide) (by decide) (Option.some.inj h).symm
  · exact hends _ "-class.html" (by decide) (by decide) (Option.some.inj h).symm
  all_goals
    split at h
    · split at h
      · rename_i page' _
        split_ifs at h
        refine hends page' ("#" ++ e.name.last) (by simp) ?_ ?_
        · simpa using hlast
        · rw [← String.append_assoc]
          exact (Option.some.inj h).symm
      · cases h
    · cases h

/-- No page of a built index is taken for a placeholder. -/
theorem getLast?_ne_of_urlFor {m : Model} (h : m.Valid) {base name url : String}
    (hurl : urlFor m.index base name = some url) :
    url ≠ "" ∧ Dot.placeholder? url = none := by
  obtain ⟨i, hi, hurl⟩ := Option.bind_eq_some_iff.1 hurl
  obtain ⟨page, hpage, hurl⟩ := Option.bind_eq_some_iff.1 hurl
  obtain rfl := Option.some.inj hurl
  have hlisted : i ∈ m.index.listed := (((Model.consistent_index h).lookup _ _).1 hi).1
  obtain ⟨n, hn, rfl⟩ := (Model.mem_listed_iff_place h).1 hlisted
  have hlast : '>' ∉ (m.index.entity (m.place n)).name.last.toList := by
    intro hmem
    change '>' ∈ (m.index.nameOf (m.place n)).last.toList at hmem
    rw [Model.nameOf_place h hn] at hmem
    exact absurd ((Model.isDotted_of_mem_names h hn).isWord_of_mem_last hmem) (by decide)
  obtain ⟨hne, hget⟩ := getLast?_ne_of_pageFrom hlast hpage
  exact ⟨by simp [hne], Dot.placeholder?_eq_none (hget base)⟩

end Pages

/-! ### The nodes of diagrams -/

namespace Diagram

theorem NodeStyle.get?_toNode (s : NodeStyle) (k : ℕ) :
    (s.toNode k).attrs.get? "href" = s.attrs.get? "href" := by
  unfold NodeStyle.toNode
  split_ifs
  · exact (Dot.Attrs.get?_erase _ _ _).trans (if_neg (by decide))
  · exact (Dot.Attrs.get?_insert _ _ _ _).trans (if_neg (by decide))
  · rfl

theorem NodeStyle.get?_icon (input : StyleInput) (href : String) :
    (NodeStyle.icon input href).attrs.get? "href" = some href := by
  simp [NodeStyle.icon, Dot.Attrs.ofList, Dot.Attrs.get?_insert]

theorem NodeStyle.get?_boxAttrs (href tooltip : String) :
    (NodeStyle.boxAttrs href tooltip).get? "href" = some href := by
  simp [NodeStyle.boxAttrs, Dot.Attrs.ofList, Dot.Attrs.get?_insert]

theorem NodeStyle.get?_rounded (input : StyleInput) (href : String) :
    (NodeStyle.rounded input href).attrs.get? "href" = some href := by
  unfold NodeStyle.rounded
  dsimp only
  split_ifs <;> simp [Dot.Attrs.get?_insert, NodeStyle.get?_boxAttrs]

theorem NodeStyle.get?_box (input : StyleInput) (href : String) :
    (NodeStyle.box input href).attrs.get? "href" = some href := by
  unfold NodeStyle.box
  dsimp only
  split_ifs <;> simp [Dot.Attrs.get?_insert, NodeStyle.get?_boxAttrs]

/-- Every style has an address: that of the page, or the one for no page. -/
theorem NodeStyle.get?_of (input : StyleInput) : (NodeStyle.of input).attrs.get? "href" =
    some (if input.url = "" then noopUrl else input.url) := by
  unfold NodeStyle.of
  dsimp only
  cases input.shape with
  | module =>
    dsimp only
    split_ifs <;> simp [get?_icon, get?_box]
  | routine => exact get?_rounded _ _
  | other => exact get?_box _ _

namespace Builder

variable {b : Builder} {targets : List EntityId} {opts : Options}

/-- The node is that of the entity: a box or an icon, or else a package with its submodules. -/
def Depicts (b : Builder) (opts : Options) (i : EntityId) (n : Dot.Node) : Prop :=
  n = (b.nodeStyle opts i).toNode n.id ∨
    n = (b.packageStyle (opts.current.map b.index.resolve) i).toNode n.id

theorem get?_of_depicts {i : EntityId} {n : Dot.Node} (h : b.Depicts opts i n) :
    n.attrs.get? "href" = some (b.hrefFor i) := by
  rcases h with h | h
  · rw [h, NodeStyle.get?_toNode]
    exact NodeStyle.get?_of _
  · rw [h, NodeStyle.get?_toNode]
    simp [packageStyle, Dot.Attrs.ofList, Dot.Attrs.get?_insert]

theorem exists_depicts {kind : Kind} {k : ℕ} {n : Dot.Node}
    (h : n ∈ (b.plan targets opts kind).nodes k) : ∃ i, b.Depicts opts i n := by
  have hstyle : (b.plan targets opts kind).style = b.nodeStyle opts ∨
      (b.plan targets opts kind).style =
        b.packageStyle (opts.current.map b.index.resolve) := by
    rcases b.plan_cases targets opts kind with h | h | h | h | h | h <;> rw [h]
    · exact Or.inr rfl
    all_goals exact Or.inl rfl
  obtain ⟨j, hj, rfl⟩ := List.mem_mapIdx.1 h
  refine ⟨(b.plan targets opts kind).entities[j], ?_⟩
  unfold Depicts
  rw [NodeStyle.id_toNode]
  rcases hstyle with hstyle | hstyle <;> rw [hstyle]
  · exact Or.inl rfl
  · exact Or.inr rfl

/-- A direction that passes the check sets no address. -/
theorem not_mem_directionLine {dir default_ : String}
    (hdir : Validation.checkDirection dir = .ok ()) (hdefault : default_ ∈ Validation.directions) :
    'h' ∉ (directionLine dir default_).toList := by
  have hmem : (if dir = "" then default_ else dir) ∈ Validation.directions := by
    unfold Validation.checkDirection at hdir
    split_ifs at hdir with hcheck
    by_cases hempty : dir = ""
    · rwa [if_pos hempty]
    · rw [if_neg hempty]
      simpa [hempty] using hcheck
  unfold directionLine
  dsimp only
  generalize (if dir = "" then default_ else dir) = d at hmem
  revert d
  decide +kernel

/-- The settings of a diagram and of its edges hold no address. -/
theorem plan_settings (b : Builder) (targets : List EntityId) (kind : Kind)
    (hdir : Validation.checkDirection opts.dir = .ok ()) :
    (b.plan targets opts kind).nodeDefaults.get? "href" = none ∧
      (b.plan targets opts kind).edgeDefaults.get? "href" = none ∧
      (b.plan targets opts kind).edgeAttrs.get? "href" = none ∧
      'h' ∉ (b.plan targets opts kind).body.toList := by
  have hbody : ∀ front default_ : String, 'h' ∉ front.toList → default_ ∈ Validation.directions →
      'h' ∉ (front ++ directionLine opts.dir default_).toList := by
    intro front default_ hfront hdefault
    rw [String.toList_append, List.mem_append, not_or]
    exact ⟨hfront, not_mem_directionLine hdir hdefault⟩
  rcases b.plan_cases targets opts kind with h | h | h | h | h | h <;> rw [h]
  · exact ⟨rfl, rfl, rfl, List.not_mem_nil⟩
  · exact ⟨rfl, Dot.Attrs.get?_ofList_eq_none (by decide),
      Dot.Attrs.get?_ofList_eq_none (by decide), hbody _ _ (by decide) (by decide)⟩
  · exact ⟨rfl, Dot.Attrs.get?_ofList_eq_none (by decide), rfl,
      hbody _ _ (by decide) (by decide)⟩
  · exact ⟨rfl, rfl, rfl, hbody _ _ (by decide) (by decide)⟩
  · exact ⟨Dot.Attrs.get?_ofList_eq_none (by decide), rfl, rfl,
      not_mem_directionLine hdir (by decide)⟩
  · exact ⟨rfl, rfl, rfl, List.not_mem_nil⟩

/-- What nodes lead to in a documentation run: the page of the entity, or nowhere. -/
theorem hrefFor_eq {m : Model} (h : m.Valid) {base : String} (hindex : b.index = m.index)
    (hlinker : b.linker = some (Pages.urlFor m.index base)) (i : EntityId) :
    b.hrefFor i ≠ "" ∧ Dot.placeholder? (b.hrefFor i) = none ∧
      ((Pages.urlFor m.index base (m.index.nameOf i).text = some (b.hrefFor i)) ∨
        Pages.urlFor m.index base (m.index.nameOf i).text = none ∧ b.hrefFor i = noopUrl) := by
  have hhref : b.hrefFor i =
      if (Pages.urlFor m.index base (m.index.nameOf i).text).getD "" = "" then noopUrl
      else (Pages.urlFor m.index base (m.index.nameOf i).text).getD "" := by
    simp only [hrefFor, urlFor, hlinker, hindex]
  cases hurl : Pages.urlFor m.index base (m.index.nameOf i).text with
  | none =>
    rw [hurl, Option.getD_none, if_pos rfl] at hhref
    rw [hhref]
    exact ⟨by decide, by decide, Or.inr ⟨rfl, rfl⟩⟩
  | some url =>
    obtain ⟨hne, hplace⟩ := Pages.getLast?_ne_of_urlFor h hurl
    rw [hurl, Option.getD_some, if_neg hne] at hhref
    rw [hhref]
    exact ⟨hne, hplace, Or.inl rfl⟩

/-- In a diagram of a built index every node depicts an entity and leads to its page, or nowhere
when there is none, and linking the diagram changes nothing. -/
theorem addressed_of_build (m : Model) (ix : Index) (b : Builder) (base : String)
    (hbuild : m.build = .ok ix) (hindex : b.index = ix)
    (hlinker : b.linker = some (Pages.urlFor ix base)) (kind : String)
    (targets : List EntityId) (opts : Options) (c : Dot.Context) (built : Built)
    (hbuilt : b.build kind targets opts c = .ok built) :
    (∀ n ∈ built.graph.nodes, (∃ i, b.Depicts opts i n) ∧
      ∀ i, b.Depicts opts i n → ∃ url, n.attrs.get? "href" = some url ∧ url ≠ "" ∧
        (Pages.urlFor ix base (ix.nameOf i).text = some url ∨
          Pages.urlFor ix base (ix.nameOf i).text = none ∧ url = noopUrl)) ∧
    built.graph.link (Pages.urlFor ix base) = built.graph := by
  obtain ⟨hv, rfl⟩ := Model.build_eq_ok_iff.1 hbuild
  obtain ⟨hdir, k, -, rfl⟩ := (b.build_eq_ok_iff _ _ _).1 hbuilt
  obtain ⟨log, hdraw⟩ := b.buildKind_eq_draw targets opts c k
  rw [hdraw]
  have hnodes : ∀ n ∈ ((b.plan targets opts k).draw c).1.nodes, ∃ i, b.Depicts opts i n :=
    fun n hn => exists_depicts hn
  obtain ⟨hnodeDefaults, hedgeDefaults, hedgeAttrs, hbody⟩ :=
    b.plan_settings targets k hdir
  refine ⟨fun n hn => ⟨hnodes n hn, fun i hi => ?_⟩, ?_⟩
  · obtain ⟨hne, -, hpage⟩ := hrefFor_eq hv hindex hlinker i
    exact ⟨b.hrefFor i, get?_of_depicts hi, hne, hpage⟩
  · refine Dot.Graph.link_eq_self _ ?_ ?_ ?_ ?_ (Dot.not_mentions_of_not_mem hbody)
    · exact Dot.Attrs.isLinked_of_get?_eq_none hnodeDefaults
    · intro n hn href hget
      obtain ⟨i, hi⟩ := hnodes n hn
      rw [get?_of_depicts hi] at hget
      obtain rfl := Option.some.inj hget
      exact (hrefFor_eq hv hindex hlinker i).2.1
    · exact Dot.Attrs.isLinked_of_get?_eq_none hedgeDefaults
    · intro e he
      obtain ⟨x, -, rfl⟩ := List.mem_map.1 he
      exact Dot.Attrs.isLinked_of_get?_eq_none hedgeAttrs

/-- A module with a function, and a function outside of any module, which calls the first. -/
def callSample : Model where
  entities :=
    [{ name := "m", kind := "module" }, { name := "m.g", kind := "function" },
     { name := "f", kind := "function" }]
  calls := [⟨"f", "m.g"⟩]

/-- The builder of a documentation run for the sample, with its pages below a base address. -/
def callSampleBuilder : Builder where
  index := callSample.index
  linker := some (Pages.urlFor callSample.index "../api/")
  version := ⟨[2, 43]⟩

theorem addressed_of_call_graph :
    ∃ built, callSampleBuilder.build "call-graph" [2] { addCallees := true } {} = .ok built ∧
      (built.graph.nodes.map fun n => n.attrs.get? "href") =
        [some "javascript:;", some "../api/m-module.html#g"] ∧
      (∀ n ∈ built.graph.nodes, (∃ i, callSampleBuilder.Depicts { addCallees := true } i n) ∧
        ∀ i, callSampleBuilder.Depicts { addCallees := true } i n →
          ∃ url, n.attrs.get? "href" = some url ∧ url ≠ "" ∧
            (Pages.urlFor callSample.index "../api/" (callSample.index.nameOf i).text = some url ∨
              Pages.urlFor callSample.index "../api/" (callSample.index.nameOf i).text = none ∧
                url = noopUrl)) ∧
      built.graph.link (Pages.urlFor callSample.index "../api/") = built.graph := by
  have hbuild : callSample.build = .ok callSample.index := by decide +kernel
  have hbuilt : callSampleBuilder.build "call-graph" [2] { addCallees := true } {} =
      .ok (callSampleBuilder.buildKind .callGraph [2] { addCallees := true } {}) := by
    rfl
  have hsorted : callSampleBuilder.sortByName [2, 1] = [2, 1] :=
    List.mergeSort_of_pairwise (by decide +kernel)
  have hnodes : (callSampleBuilder.buildKind .callGraph [2] { addCallees := true } {}).graph.nodes =
      nodesFrom (callSampleBuilder.nodeStyle { addCallees := true }) 0 [2, 1] := by
    rw [buildKind, callGraph_eq_draw _ _ _ _ rfl, ← hsorted]
    rfl
  refine ⟨_, hbuilt, ?_,
    addressed_of_build callSample callSample.index callSampleBuilder "../api/" hbuild rfl rfl
      "call-graph" [2] { addCallees := true } {} _ hbuilt⟩
  rw [hnodes]
  decide +kernel

end Builder
end Diagram
end ApiDiagrams
