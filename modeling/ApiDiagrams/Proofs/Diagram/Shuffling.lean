import ApiDiagrams.Proofs.Diagram.Enumeration
import ApiDiagrams.Proofs.Diagram.Plan
import ApiDiagrams.Proofs.Diagram.Reach
import ApiDiagrams.Proofs.Run.Outcome

/-!
# Diagrams do not depend on the order of sets

The builders collect entities, edges and attributes in sets and go through these in any order. Here
the builders are written as programs over sets, and every one of them has exactly one result: nodes
are sorted by names, which differ in a built index, and edges by the numbers of their ends, which
differ in every diagram.

* `Name.le_iff`: the order of names;
* `addNodesAnyhow_eq`, `addEdgesAnyhow_eq`: nodes and edges of a set, whatever its order;
* `strictMono_edgesOf`, `strictMono_sortByName`: edges and nodes strictly increase;
* `Builder.buildAnyhow`: the builders as programs over sets;
* `Builder.writtenAnyhow_eq`: a diagram and its text, whatever the order of the sets.
-/

namespace ApiDiagrams

/-! ### The order of names -/

namespace Name

theorem le_iff {a b : Name} : a.le b = true ↔ a.parts ≤ b.parts := by
  rw [le, Bool.not_eq_true', ← Bool.not_eq_true, List.lex_eq_true_iff_lt, not_lt]

theorem total_le (a b : Name) : (a.le b || b.le a) = true := by
  rw [Bool.or_eq_true, le_iff, le_iff]
  exact le_total _ _

theorem trans_le {a b c : Name} (h : a.le b = true) (h' : b.le c = true) : a.le c = true := by
  rw [le_iff] at *
  exact h.trans h'

theorem antisymm_le {a b : Name} (h : a.le b = true) (h' : b.le a = true) : a = b := by
  rw [le_iff] at *
  exact eq_of_parts (le_antisymm h h')

end Name

namespace Diagram

/-! ### Nodes -/

/-- Adds one styled node per entity of a list, with attributes of its own. -/
def addStyledNodesAnyhow (style : EntityId → NodeStyle) :
    List EntityId → Dot.Graph → Dot.Context → SetM (NodeTable × Dot.Graph × Dot.Context)
  | [], g, c => return ([], g, c)
  | i :: rest, g, c => do
    let attrs ← (style i).attrs.cloneAnyhow
    let (n, g, c) := addStyled { style i with attrs } g c
    let (table, g, c) ← addStyledNodesAnyhow style rest g c
    return ((i, n) :: table, g, c)

theorem addStyledNodesAnyhow_eq {style : EntityId → NodeStyle}
    (h : ∀ i, (style i).attrs.Ordered) (is : List EntityId) (g : Dot.Graph) (c : Dot.Context) :
    addStyledNodesAnyhow style is g c = pure (addStyledNodes style is g c) := by
  induction is generalizing g c with
  | nil => rfl
  | cons i is ih =>
    rw [addStyledNodesAnyhow, Dot.Attrs.cloneAnyhow_eq (h i), pure_bind]
    simp only [ih, pure_bind]
    rfl

/-! ### Edges -/

/-- The nodes of a table have different numbers. -/
def Numbered (table : NodeTable) : Prop := (table.map fun x => x.2.id).Nodup

theorem numbered_zip (style : EntityId → NodeStyle) (k : ℕ) (is : List EntityId) :
    Numbered (is.zip (nodesFrom style k is)) := by
  have hsnd : (is.zip (nodesFrom style k is)).map Prod.snd = nodesFrom style k is :=
    List.map_snd_zip (by simp)
  have hids := congrArg (List.map Dot.Node.id) hsnd
  rw [List.map_map, map_id_nodesFrom] at hids
  change (((is.zip (nodesFrom style k is)).map (Dot.Node.id ∘ Prod.snd))).Nodup
  rw [hids]
  exact List.nodup_range'

theorem Numbered.eq_of_lookup {table : NodeTable} (h : Numbered table) {i j : EntityId}
    {n n' : Dot.Node} (hi : table.lookup i = some n) (hj : table.lookup j = some n')
    (hid : n.id = n'.id) : i = j ∧ n = n' := by
  have hmem : ∀ {i : EntityId} {n : Dot.Node}, table.lookup i = some n → (i, n) ∈ table := by
    intro i n hi
    obtain ⟨before, after, rfl, -⟩ := List.lookup_eq_some_iff.1 hi
    simp
  exact Prod.mk.inj (List.inj_on_of_nodup_map h (hmem hi) (hmem hj) hid)

theorem mem_edgesBetween_iff {table : NodeTable} {pairs : List (EntityId × EntityId)}
    {e : Dot.Node × Dot.Node} : e ∈ edgesBetween table pairs ↔
      ∃ p ∈ pairs, table.lookup p.1 = some e.1 ∧ table.lookup p.2 = some e.2 := by
  unfold edgesBetween
  rw [List.mem_filterMap]
  constructor
  · rintro ⟨⟨i, j⟩, hp, he⟩
    obtain ⟨s, hs, he⟩ := Option.bind_eq_some_iff.1 he
    obtain ⟨t, ht, he⟩ := Option.bind_eq_some_iff.1 he
    obtain rfl := Option.some.inj he
    exact ⟨(i, j), List.mem_eraseDups.1 hp, hs, ht⟩
  · rintro ⟨⟨i, j⟩, hp, hs, ht⟩
    refine ⟨(i, j), List.mem_eraseDups.2 hp, ?_⟩
    simp only [hs, ht]
    rfl

theorem edgeLe_iff {e f : Dot.Node × Dot.Node} : edgeLe e f = true ↔
    e.1.id < f.1.id ∨ e.1.id = f.1.id ∧ e.2.id ≤ f.2.id := by
  simp [edgeLe]

theorem edgeLe_trans (e f k : Dot.Node × Dot.Node) (h : edgeLe e f = true)
    (h' : edgeLe f k = true) : edgeLe e k = true := by
  rw [edgeLe_iff] at *
  omega

theorem edgeLe_total (e f : Dot.Node × Dot.Node) : (edgeLe e f || edgeLe f e) = true := by
  rw [Bool.or_eq_true, edgeLe_iff, edgeLe_iff]
  omega

/-- The numbers of its ends tell an edge from all others of a diagram. -/
theorem eq_of_ids_eq {table : NodeTable} (h : Numbered table)
    {pairs : List (EntityId × EntityId)} {e f : Dot.Node × Dot.Node}
    (he : e ∈ edgesBetween table pairs) (hf : f ∈ edgesBetween table pairs)
    (hs : e.1.id = f.1.id) (ht : e.2.id = f.2.id) : e = f := by
  obtain ⟨p, -, hp1, hp2⟩ := mem_edgesBetween_iff.1 he
  obtain ⟨q, -, hq1, hq2⟩ := mem_edgesBetween_iff.1 hf
  exact Prod.ext (h.eq_of_lookup hp1 hq1 hs).2 (h.eq_of_lookup hp2 hq2 ht).2

theorem nodup_edgesBetween {table : NodeTable} (h : Numbered table)
    (pairs : List (EntityId × EntityId)) : (edgesBetween table pairs).Nodup := by
  refine List.Nodup.filterMap ?_ (nodup_eraseDups pairs)
  rintro ⟨i, j⟩ ⟨i', j'⟩ e he he'
  obtain ⟨s, hs, he⟩ := Option.bind_eq_some_iff.1 he
  obtain ⟨t, ht, he⟩ := Option.bind_eq_some_iff.1 he
  obtain ⟨s', hs', he'⟩ := Option.bind_eq_some_iff.1 he'
  obtain ⟨t', ht', he'⟩ := Option.bind_eq_some_iff.1 he'
  obtain rfl := Option.some.inj he
  obtain ⟨rfl, rfl⟩ := Prod.mk.inj (Option.some.inj he')
  rw [(h.eq_of_lookup hs hs' rfl).1, (h.eq_of_lookup ht ht' rfl).1]

theorem perm_edgesBetween {table : NodeTable} {pairs pairs' : List (EntityId × EntityId)}
    (h : pairs.Perm pairs') : (edgesBetween table pairs).Perm (edgesBetween table pairs') := by
  have hset : pairs.eraseDups.Perm pairs'.eraseDups := by
    rw [List.perm_ext_iff_of_nodup (nodup_eraseDups pairs) (nodup_eraseDups pairs')]
    intro p
    rw [List.mem_eraseDups, List.mem_eraseDups, h.mem_iff]
  exact hset.filterMap _

/-- Adds the edges of a set in the order of the numbers of their ends, each with attributes of its
own. -/
def addEdgesAnyhow (table : NodeTable) (pairs : List (EntityId × EntityId)) (attrs : Dot.Attrs)
    (g : Dot.Graph) : SetM Dot.Graph := do
  let edges ← sortedSet edgeLe (edgesBetween table pairs)
  edges.foldlM (fun g e => do return g.addEdge e.1 e.2 (← attrs.cloneAnyhow)) g

/-- The order in which the pairs were found does not matter. -/
theorem addEdgesAnyhow_eq {table : NodeTable} (h : Numbered table)
    {pairs pairs' : List (EntityId × EntityId)} (hp : pairs'.Perm pairs) {attrs : Dot.Attrs}
    (ha : attrs.Ordered) (g : Dot.Graph) :
    addEdgesAnyhow table pairs' attrs g = pure (addEdges table pairs attrs g) := by
  have hedges : (edgesBetween table pairs').Perm (edgesBetween table pairs) := perm_edgesBetween hp
  have hsorted := sortedSet_eq edgeLe_trans edgeLe_total hedges fun e he f hf hef hfe => by
    rw [edgeLe_iff] at hef hfe
    exact eq_of_ids_eq h he hf (by omega) (by omega)
  simp only [addEdgesAnyhow, hsorted, Dot.Attrs.cloneAnyhow_eq ha, pure_bind, List.foldlM_pure]
  rfl

/-- Edges strictly increase by the numbers of their ends, that of the source first. -/
theorem strictMono_edgesOf {table : NodeTable} (h : Numbered table)
    (pairs : List (EntityId × EntityId)) (attrs : Dot.Attrs) :
    (edgesOf table pairs attrs).Pairwise fun e f => e.source.id < f.source.id ∨
      e.source.id = f.source.id ∧ e.target.id < f.target.id := by
  have hperm := List.mergeSort_perm (edgesBetween table pairs) edgeLe
  have hnodup : ((edgesBetween table pairs).mergeSort edgeLe).Nodup :=
    hperm.nodup_iff.2 (nodup_edgesBetween h pairs)
  have hsorted := List.pairwise_mergeSort edgeLe_trans edgeLe_total (edgesBetween table pairs)
  refine List.Pairwise.map _ (fun e f hef => hef) ?_
  refine (hsorted.and hnodup).imp_of_mem fun {e f} he hf hef => ?_
  change e.1.id < f.1.id ∨ e.1.id = f.1.id ∧ e.2.id < f.2.id
  have hne : ¬ (e.1.id = f.1.id ∧ e.2.id = f.2.id) := fun hids =>
    hef.2 (eq_of_ids_eq h (hperm.mem_iff.1 he) (hperm.mem_iff.1 hf) hids.1 hids.2)
  have hle := edgeLe_iff.1 hef.1
  omega

/-! ### Styles -/

theorem NodeStyle.ordered_of (input : StyleInput) : (NodeStyle.of input).attrs.Ordered := by
  have hbox : ∀ href tooltip, (boxAttrs href tooltip).Ordered :=
    fun href tooltip => Dot.Attrs.ordered_ofList _
  unfold NodeStyle.of
  dsimp only
  cases input.shape with
  | module =>
    dsimp only
    split_ifs
    all_goals first
      | exact Dot.Attrs.ordered_ofList _
      | (unfold box; dsimp only; split_ifs <;> simp [Dot.Attrs.Ordered.insert, hbox])
  | routine =>
    dsimp only [rounded]
    split_ifs <;> simp [Dot.Attrs.Ordered.insert, hbox]
  | other =>
    dsimp only [box]
    split_ifs <;> simp [Dot.Attrs.Ordered.insert, hbox]

theorem NodeStyle.ordered_toNode {s : NodeStyle} (h : s.attrs.Ordered) (k : ℕ) :
    (s.toNode k).attrs.Ordered := by
  unfold NodeStyle.toNode
  split_ifs
  · exact h.erase _
  · exact h.insert _ _
  · exact h

namespace Builder

variable (b : Builder) (targets : List EntityId) (opts : Options) (c : Dot.Context)

/-! ### The builders -/

/-- The order of entities by name. -/
def namedBefore (i j : EntityId) : Bool := (b.index.nameOf i).le (b.index.nameOf j)

/-- Adds one styled node per entity of a set, in the order of names. -/
def addNodesAnyhow (set : List EntityId) (current : Option EntityId) (g : Dot.Graph)
    (c : Dot.Context) : SetM (NodeTable × Dot.Graph × Dot.Context) := do
  let is ← sortedSet b.namedBefore set
  addStyledNodesAnyhow (b.styleOf (current.map b.index.resolve)) is g c

/-- Builds a class tree. -/
def classTreeAnyhow : SetM (Dot.Graph × Dot.Context) := do
  let (g, c) := c.newGraph ("Class Hierarchy for " ++ b.titleNames targets opts.current)
  let edgeDefaults ← (Dot.Attrs.ofList [("sametail", "true"), ("dir", "none")]).cloneAnyhow
  let g := withDirection { g with body := "ranksep=0.3\n", edgeDefaults } opts.dir "TB"
  let found ← enumerate (b.classFamily targets)
  let classes := found.filter b.isDrawnClass
  let (table, g, c) ← b.addNodesAnyhow classes opts.current g c
  let classes ← enumerate classes
  let pairs := classes.flatMap fun i => (b.index.entity i).subclasses.map fun s => (i, s)
  return (← addEdgesAnyhow table pairs .empty g, c)

/-- Builds a package tree of nested icons. -/
def nestedTreeAnyhow : SetM (Dot.Graph × Dot.Context) := do
  let (g, c) := c.newGraph (b.packageTitle targets opts)
  let (_, g, c) ← addStyledNodesAnyhow (b.packageStyle (opts.current.map b.index.resolve))
    (b.outermost targets) g c
  return (g, c)

/-- Builds a package tree of joined icons. -/
def plainTreeAnyhow : SetM (Dot.Graph × Dot.Context) := do
  let (g, c) := c.newGraph (b.packageTitle targets opts)
  let edgeDefaults ← (Dot.Attrs.ofList [("dir", "none")]).cloneAnyhow
  let g := withDirection { g with body := "ranksep=.3\nnodesep=.1\n", edgeDefaults } opts.dir "TB"
  let (table, g, c) ← b.addNodesAnyhow (b.packagesBelow targets) opts.current g c
  let modules ← enumerate (b.packagesBelow targets)
  let pairs := modules.flatMap fun m => (b.index.entity m).submodules.map fun s => (m, s)
  return (← addEdgesAnyhow table pairs (.ofList [("headport", "tab")]) g, c)

/-- Builds a package tree. -/
def packageTreeAnyhow : SetM (Dot.Graph × Dot.Context × List Log.Record) := do
  if b.nests opts then
    let (g, c) ← b.nestedTreeAnyhow targets opts c
    return (g, c, [])
  else
    let (g, c) ← b.plainTreeAnyhow targets opts c
    return (g, c,
      if opts.style = umlStyle then
        [⟨.warn, "UML style package trees require dot version 2.0+",
          [("dot", .text b.version.text)]⟩]
      else [])

/-- Builds an import graph. -/
def importGraphAnyhow : SetM (Dot.Graph × Dot.Context) := do
  let (g, c) := c.newGraph "Import Graph"
  let g := withDirection { g with body := "ranksep=.3\nnodesep=.3\n" } opts.dir "RL"
  let (table, g, c) ← b.addNodesAnyhow targets.eraseDups opts.current g c
  return (← addEdgesAnyhow table (b.importPairs targets) .empty g, c)

/-- Builds a call graph. -/
def callGraphAnyhow : SetM (Dot.Graph × Dot.Context × List Log.Record) := do
  if !b.index.hasProfile then
    let (g, c) := c.newGraph "Call Graph"
    return (g, c, [noProfileWarning])
  else
    let routines := b.profiledRoutines targets
    let (g, c) := c.newGraph ("Call Graph for " ++ b.titleNames targets opts.current)
    let nodeDefaults ←
      (Dot.Attrs.ofList [("shape", "box"), ("width", "0"), ("height", "0")]).cloneAnyhow
    let g := withDirection { g with nodeDefaults } opts.dir "LR"
    let (table, g, c) ← b.addNodesAnyhow (b.callSet routines opts) opts.current g c
    return (← addEdgesAnyhow table (b.callPairs routines) .empty g, c, [])

/-- Builds a diagram of a kind whose options have been checked. -/
def buildKindAnyhow (kind : Kind) : SetM Built := do
  match kind with
  | .packageTree =>
    let (g, c, log) ← b.packageTreeAnyhow targets opts c
    return ⟨g, c, log⟩
  | .classTree =>
    let (g, c) ← b.classTreeAnyhow targets opts c
    return ⟨g, c, []⟩
  | .importGraph =>
    let (g, c) ← b.importGraphAnyhow targets opts c
    return ⟨g, c, []⟩
  | .callGraph =>
    let (g, c, log) ← b.callGraphAnyhow targets opts c
    return ⟨g, c, log⟩

/-- Builds the diagram of exactly the named kind. -/
def buildAnyhow (kind : String) : SetM (Except Fault Built) := do
  match Validation.checkDirection opts.dir, Kind.ofText? kind with
  | .error f, _ => return .error f
  | .ok (), some k => return .ok (← b.buildKindAnyhow targets opts c k)
  | .ok (), none =>
    return .error (.coded .invalidGraphKind ("unknown graph kind " ++ Text.quote kind))

/-- Builds the diagram of exactly the named kind and writes it. -/
def writtenAnyhow (kind : String) : SetM (Except Fault (Built × ByteArray)) := do
  match ← b.buildAnyhow targets opts c kind with
  | .error f => return .error f
  | .ok built => return .ok (built, (← built.graph.textAnyhow).toUTF8)

/-! ### One result -/

variable {b targets opts c}

theorem namedBefore_trans (b : Builder) (i j k : EntityId) (h : b.namedBefore i j = true)
    (h' : b.namedBefore j k = true) : b.namedBefore i k = true := Name.trans_le h h'

theorem namedBefore_total (b : Builder) (i j : EntityId) :
    (b.namedBefore i j || b.namedBefore j i) = true := Name.total_le _ _

/-- The names of the entities of a set differ. -/
def TellsApart (b : Builder) (set : List EntityId) : Prop :=
  ∀ i ∈ set, ∀ j ∈ set, b.index.nameOf i = b.index.nameOf j → i = j

theorem ordered_nodeStyle (current : Option EntityId) (i : EntityId) :
    (b.styleOf current i).attrs.Ordered := NodeStyle.ordered_of _

theorem ordered_packageStyle (current : Option EntityId) (i : EntityId) :
    (b.packageStyle current i).attrs.Ordered := Dot.Attrs.ordered_ofList _

theorem addNodesAnyhow_eq {set set' : List EntityId} (h : b.TellsApart set)
    (hset : set'.Perm set) (current : Option EntityId) (g : Dot.Graph) (c : Dot.Context) :
    b.addNodesAnyhow set' current g c = pure (b.addNodes set current g c) := by
  have hsorted := sortedSet_eq b.namedBefore_trans b.namedBefore_total hset
    fun i hi j hj hij hji => h i hi j hj (Name.antisymm_le hij hji)
  rw [addNodesAnyhow, hsorted, pure_bind,
    addStyledNodesAnyhow_eq (ordered_nodeStyle (current.map b.index.resolve))]
  rfl

theorem numbered_addNodes (set : List EntityId) (current : Option EntityId) (g : Dot.Graph)
    (c : Dot.Context) : Numbered (b.addNodes set current g c).1 := by
  rw [addNodes, addStyledNodes_eq]
  exact numbered_zip _ _ _

theorem classTreeAnyhow_eq (h : b.TellsApart (b.drawnClasses targets)) :
    b.classTreeAnyhow targets opts c = pure (b.classTree targets opts c) := by
  unfold classTreeAnyhow
  dsimp only
  rw [Dot.Attrs.cloneAnyhow_eq (Dot.Attrs.ordered_ofList _), pure_bind]
  refine bind_enumerate fun found hfound => ?_
  have hclasses : (found.filter b.isDrawnClass).Perm (b.drawnClasses targets) := hfound.filter _
  rw [addNodesAnyhow_eq h hclasses, pure_bind]
  refine bind_enumerate fun order horder => ?_
  rw [addEdgesAnyhow_eq (numbered_addNodes _ _ _ _)
    ((horder.trans hclasses).flatMap_right _) Dot.Attrs.ordered_empty, pure_bind]
  rfl

theorem nestedTreeAnyhow_eq : b.nestedTreeAnyhow targets opts c =
    pure (b.nestedTree (b.packageTitle targets opts) targets opts.current c) := by
  unfold nestedTreeAnyhow
  dsimp only
  rw [addStyledNodesAnyhow_eq (ordered_packageStyle _), pure_bind]
  rfl

theorem plainTreeAnyhow_eq (h : b.TellsApart (b.packagesBelow targets)) :
    b.plainTreeAnyhow targets opts c =
      pure (b.plainTree (b.packageTitle targets opts) targets opts c) := by
  unfold plainTreeAnyhow
  dsimp only
  rw [Dot.Attrs.cloneAnyhow_eq (Dot.Attrs.ordered_ofList _), pure_bind,
    addNodesAnyhow_eq h (List.Perm.refl _), pure_bind]
  refine bind_enumerate fun order horder => ?_
  rw [addEdgesAnyhow_eq (numbered_addNodes _ _ _ _) (horder.flatMap_right _)
    (Dot.Attrs.ordered_ofList _), pure_bind]
  rfl

theorem packageTreeAnyhow_eq (h : b.TellsApart (b.packagesBelow targets)) :
    b.packageTreeAnyhow targets opts c = pure (b.packageTree targets opts c) := by
  unfold packageTreeAnyhow
  by_cases hn : b.nests opts = true
  · rw [if_pos hn, nestedTreeAnyhow_eq, pure_bind]
    unfold nests at hn
    rw [packageTree, if_pos hn]
    rfl
  · rw [if_neg hn, plainTreeAnyhow_eq h, pure_bind]
    unfold nests at hn
    rw [packageTree, if_neg hn]
    rfl

theorem importGraphAnyhow_eq (h : b.TellsApart targets.eraseDups) :
    b.importGraphAnyhow targets opts c = pure (b.importGraph targets opts c) := by
  unfold importGraphAnyhow
  dsimp only
  rw [addNodesAnyhow_eq h (List.Perm.refl _), pure_bind,
    addEdgesAnyhow_eq (numbered_addNodes _ _ _ _) (List.Perm.refl _) Dot.Attrs.ordered_empty,
    pure_bind]
  rfl

theorem callGraphAnyhow_eq
    (h : b.TellsApart (b.callSet (b.profiledRoutines targets) opts)) :
    b.callGraphAnyhow targets opts c = pure (b.callGraph targets opts c) := by
  unfold callGraphAnyhow
  by_cases hp : (!b.index.hasProfile) = true
  · rw [if_pos hp, callGraph, if_pos hp]
  · rw [if_neg hp, callGraph, if_neg hp]
    dsimp only
    rw [Dot.Attrs.cloneAnyhow_eq (Dot.Attrs.ordered_ofList _), pure_bind,
      addNodesAnyhow_eq h (List.Perm.refl _), pure_bind,
      addEdgesAnyhow_eq (numbered_addNodes _ _ _ _) (List.Perm.refl _) Dot.Attrs.ordered_empty,
      pure_bind]

/-- The names of the entities that a diagram draws from sets differ. -/
structure Distinguishes (b : Builder) (targets : List EntityId) (opts : Options) : Prop where
  classes : b.TellsApart (b.drawnClasses targets)
  packages : b.TellsApart (b.packagesBelow targets)
  modules : b.TellsApart targets.eraseDups
  routines : b.TellsApart (b.callSet (b.profiledRoutines targets) opts)

theorem buildKindAnyhow_eq (h : b.Distinguishes targets opts) (kind : Kind) :
    b.buildKindAnyhow targets opts c kind = pure (b.buildKind kind targets opts c) := by
  cases kind with
  | packageTree =>
    rw [buildKindAnyhow, packageTreeAnyhow_eq h.packages, pure_bind]
    rfl
  | classTree =>
    rw [buildKindAnyhow, classTreeAnyhow_eq h.classes, pure_bind]
    rfl
  | importGraph =>
    rw [buildKindAnyhow, importGraphAnyhow_eq h.modules, pure_bind]
    rfl
  | callGraph =>
    rw [buildKindAnyhow, callGraphAnyhow_eq h.routines, pure_bind]
    rfl

theorem buildAnyhow_eq (h : b.Distinguishes targets opts) (kind : String) :
    b.buildAnyhow targets opts c kind = pure (b.build kind targets opts c) := by
  unfold buildAnyhow build
  cases Validation.checkDirection opts.dir with
  | error f => rfl
  | ok _ =>
    cases Kind.ofText? kind with
    | none => rfl
    | some k =>
      dsimp only
      rw [buildKindAnyhow_eq h, pure_bind]
      rfl

/-! ### Built diagrams -/

theorem ordered_draw (kind : Kind) : ((b.plan targets opts kind).draw c).1.Ordered := by
  have hsettings : (b.plan targets opts kind).nodeDefaults.Ordered ∧
      (b.plan targets opts kind).edgeDefaults.Ordered ∧
      (b.plan targets opts kind).edgeAttrs.Ordered := by
    rcases b.plan_cases targets opts kind with h | h | h | h | h | h <;> rw [h]
    all_goals
      refine ⟨?_, ?_, ?_⟩ <;>
        first | exact Dot.Attrs.ordered_empty | exact Dot.Attrs.ordered_ofList _
  have hstyle : ∀ i, ((b.plan targets opts kind).style i).attrs.Ordered := by
    rcases b.plan_cases targets opts kind with h | h | h | h | h | h <;> rw [h]
    · exact ordered_packageStyle _
    all_goals exact ordered_nodeStyle _
  refine ⟨hsettings.1, hsettings.2.1, fun n hn => ?_, fun e he => ?_⟩
  · obtain ⟨j, hj, rfl⟩ := List.mem_mapIdx.1 hn
    exact NodeStyle.ordered_toNode (hstyle _) _
  · obtain ⟨x, -, rfl⟩ := List.mem_map.1 he
    exact hsettings.2.2

/-- A diagram and its text, whatever the order of the sets. -/
theorem writtenAnyhow_eq_of_distinguishes (h : b.Distinguishes targets opts) (kind : String) :
    b.writtenAnyhow targets opts c kind =
      pure ((b.build kind targets opts c).map fun built => (built, built.graph.source)) := by
  rw [writtenAnyhow, buildAnyhow_eq h, pure_bind]
  cases hbuilt : b.build kind targets opts c with
  | error f => rfl
  | ok built =>
    obtain ⟨-, k, -, rfl⟩ := (b.build_eq_ok_iff _ _ _).1 hbuilt
    obtain ⟨log, hdraw⟩ := b.buildKind_eq_draw targets opts c k
    have hordered : (b.buildKind k targets opts c).graph.Ordered := by
      rw [hdraw]
      exact ordered_draw k
    dsimp only
    rw [Dot.Graph.textAnyhow_eq hordered, pure_bind]
    rfl

/-! ### Names in a built index -/

/-- Names strictly increase in a sorted set. -/
theorem strictMono_sortByName {set : List EntityId} (h : b.TellsApart set) (hnodup : set.Nodup) :
    (b.sortByName set).Pairwise fun i j =>
      (b.index.nameOf i).parts < (b.index.nameOf j).parts := by
  have hperm : (b.sortByName set).Perm set := List.mergeSort_perm _ _
  have hsorted : (b.sortByName set).Pairwise fun i j => b.namedBefore i j = true :=
    List.pairwise_mergeSort b.namedBefore_trans b.namedBefore_total set
  refine (hsorted.and (hperm.nodup_iff.2 hnodup)).imp_of_mem fun {i j} hi hj hij => ?_
  refine lt_of_le_of_ne (Name.le_iff.1 hij.1) fun hparts => hij.2 ?_
  exact h i (hperm.mem_iff.1 hi) j (hperm.mem_iff.1 hj) (Name.eq_of_parts hparts)

variable {m : Model}

theorem tellsApart_of_listed (h : m.Valid) (hindex : b.index = m.index) {set : List EntityId}
    (hset : ∀ i ∈ set, i ∈ m.index.listed) : b.TellsApart set := by
  intro i hi j hj hij
  rw [hindex] at hij
  exact List.inj_on_of_nodup_map (Model.consistent_index h).distinct (hset i hi) (hset j hj) hij

theorem drawnClasses_listed (h : m.Valid) (hindex : b.index = m.index)
    (ht : ∀ i ∈ targets, i ∈ m.index.listed) :
    ∀ i ∈ b.drawnClasses targets, i ∈ m.index.listed := by
  intro i hi
  have hi := List.mem_eraseDups.1 (List.mem_of_mem_filter hi)
  rw [hindex] at hi
  rcases List.mem_append.1 hi with hi | hi
  · refine reachable_subset (fun j hj k hk => ?_) _ ht i hi
    exact Model.mem_listed_of_mem_references h hj (by simp [Model.references, hk])
  · refine reachable_subset (fun j hj k hk => ?_) _ ht i hi
    exact Model.mem_listed_of_mem_references h hj (by simp [Model.references, hk])

theorem packagesBelow_listed (h : m.Valid) (hindex : b.index = m.index)
    (ht : ∀ i ∈ targets, i ∈ m.index.listed) :
    ∀ i ∈ b.packagesBelow targets, i ∈ m.index.listed := by
  intro i hi
  rw [packagesBelow, hindex] at hi
  refine reachable_subset (fun j hj k hk => ?_) _ ht i hi
  exact Model.mem_listed_of_mem_references h hj (by simp [Model.references, hk])

theorem routinesOf_listed (h : m.Valid) (hindex : b.index = m.index) {target : EntityId}
    (ht : target ∈ m.index.listed) : ∀ i ∈ b.routinesOf target, i ∈ m.index.listed := by
  intro i hi
  have hresolve := Model.resolve_mem_listed h ht
  unfold routinesOf at hi
  rw [hindex] at hi
  dsimp only at hi
  split_ifs at hi
  · rw [List.mem_singleton.1 hi]
    exact hresolve
  · obtain ⟨j, hj, rfl⟩ := List.mem_map.1 (List.mem_of_mem_filter hi)
    refine Model.resolve_mem_listed h ?_
    exact Model.mem_listed_of_mem_references h hresolve (by simp [Model.references, hj])
  · cases hi

theorem callSet_listed (h : m.Valid) (hindex : b.index = m.index)
    (ht : ∀ i ∈ targets, i ∈ m.index.listed) :
    ∀ i ∈ b.callSet (b.profiledRoutines targets) opts, i ∈ m.index.listed := by
  have hroutines : ∀ i ∈ b.profiledRoutines targets, i ∈ m.index.listed := by
    intro i hi
    obtain ⟨t, htarget, hi⟩ := List.mem_flatMap.1 (List.mem_of_mem_filter hi)
    exact routinesOf_listed h hindex (ht t htarget) i hi
  intro i hi
  have hi := List.mem_eraseDups.1 hi
  rw [hindex] at hi
  rcases List.mem_append.1 hi with hi | hi
  · rcases List.mem_append.1 hi with hi | hi
    · exact hroutines i hi
    · split_ifs at hi
      · obtain ⟨f, hf, hi⟩ := List.mem_flatMap.1 hi
        exact Model.mem_listed_of_mem_references h (hroutines f hf) (by simp [Model.references, hi])
      · cases hi
  · split_ifs at hi
    · obtain ⟨f, hf, hi⟩ := List.mem_flatMap.1 hi
      exact Model.mem_listed_of_mem_references h (hroutines f hf) (by simp [Model.references, hi])
    · cases hi

theorem distinguishes_of_listed (h : m.Valid) (hindex : b.index = m.index)
    (ht : ∀ i ∈ targets, i ∈ m.index.listed) : b.Distinguishes targets opts where
  classes := tellsApart_of_listed h hindex (drawnClasses_listed h hindex ht)
  packages := tellsApart_of_listed h hindex (packagesBelow_listed h hindex ht)
  modules := tellsApart_of_listed h hindex fun i hi => ht i (List.mem_eraseDups.1 hi)
  routines := tellsApart_of_listed h hindex (callSet_listed h hindex ht)

/-- The nodes of a plan that sorts its entities come in the strict order of names. -/
theorem strictMono_plan (h : b.Distinguishes targets opts) (kind : Kind)
    (hkind : kind ≠ .packageTree ∨ b.nests opts = false) :
    (b.plan targets opts kind).style = b.nodeStyle opts ∧
      (b.plan targets opts kind).entities.Pairwise fun i j =>
        (b.index.nameOf i).parts < (b.index.nameOf j).parts := by
  cases kind with
  | packageTree =>
    have hn : b.nests opts = false := hkind.resolve_left (fun hne => hne rfl)
    rw [plan, if_neg (by simp [hn])]
    exact ⟨rfl, strictMono_sortByName h.packages (nodup_reachable _ _)⟩
  | classTree =>
    exact ⟨rfl, strictMono_sortByName h.classes ((nodup_eraseDups _).filter _)⟩
  | importGraph => exact ⟨rfl, strictMono_sortByName h.modules (nodup_eraseDups _)⟩
  | callGraph =>
    unfold plan
    by_cases hp : b.index.hasProfile = true
    · rw [if_pos hp]
      exact ⟨rfl, strictMono_sortByName h.routines (nodup_eraseDups _)⟩
    · rw [if_neg hp]
      exact ⟨rfl, List.Pairwise.nil⟩

/-- What order leaves of a diagram: nodes stand in the strict order of names with consecutive
numbers, unless they are nested packages, which stand in the order of the targets, and edges
strictly increase by the numbers of their ends. -/
structure Sorted (b : Builder) (kind : String) (opts : Options) (c : Dot.Context)
    (g : Dot.Graph) : Prop where
  numbers : g.nodes.map Dot.Node.id = List.range' c.nextId g.nodes.length
  names : kind ≠ Kind.packageTree.text ∨ b.nests opts = false →
    ∃ is : List EntityId, g.nodes = nodesFrom (b.nodeStyle opts) c.nextId is ∧
      is.Pairwise fun i j => (b.index.nameOf i).parts < (b.index.nameOf j).parts
  edges : g.edges.Pairwise fun e f => e.source.id < f.source.id ∨
    e.source.id = f.source.id ∧ e.target.id < f.target.id

/-- A diagram of a built index and its text do not depend on the order in which sets of entities,
edges and attributes are gone through, and its nodes and edges strictly increase. -/
theorem writtenAnyhow_eq (m : Model) (ix : Index) (b : Builder) (hbuild : m.build = .ok ix)
    (hindex : b.index = ix) (kind : String) (targets : List EntityId)
    (ht : ∀ i ∈ targets, i ∈ ix.listed) (opts : Options) (c : Dot.Context) :
    b.writtenAnyhow targets opts c kind =
        pure ((b.build kind targets opts c).map fun built => (built, built.graph.source)) ∧
      ∀ built, b.build kind targets opts c = .ok built → b.Sorted kind opts c built.graph := by
  obtain ⟨hv, rfl⟩ := Model.build_eq_ok_iff.1 hbuild
  have hd : b.Distinguishes targets opts := distinguishes_of_listed hv hindex ht
  refine ⟨writtenAnyhow_eq_of_distinguishes hd kind, fun built hbuilt => ?_⟩
  obtain ⟨-, k, hk, rfl⟩ := (b.build_eq_ok_iff _ _ _).1 hbuilt
  obtain ⟨log, hdraw⟩ := b.buildKind_eq_draw targets opts c k
  rw [hdraw]
  refine ⟨?_, fun hnests => ?_, strictMono_edgesOf (numbered_zip _ _ _) _ _⟩
  · change (nodesFrom _ _ _).map _ = List.range' _ (nodesFrom _ _ _).length
    rw [map_id_nodesFrom, length_nodesFrom]
  · have hkind : k ≠ .packageTree ∨ b.nests opts = false := by
      refine hnests.imp_left fun hne => ?_
      rintro rfl
      exact hne (Kind.ofText?_eq_some_iff.1 hk)
    obtain ⟨hstyle, hnames⟩ := strictMono_plan hd k hkind
    refine ⟨(b.plan targets opts k).entities, ?_, hnames⟩
    rw [← hstyle]
    rfl

/-- The sample has a class with two bases from different places, so that its tree is found from
both sides. -/
theorem writtenAnyhow_eq_of_class_tree :
    Model.sample.build = .ok Model.sample.index ∧
      (∀ i ∈ [2], i ∈ Model.sample.index.listed) ∧
      (⟨Model.sample.index, none, .unknown⟩ : Builder).writtenAnyhow [2] {} {} "class-tree" =
        pure (((⟨Model.sample.index, none, .unknown⟩ : Builder).build "class-tree" [2] {} {}).map
          fun built => (built, built.graph.source)) ∧
      ∀ built, (⟨Model.sample.index, none, .unknown⟩ : Builder).build "class-tree" [2] {} {} =
        .ok built → (⟨Model.sample.index, none, .unknown⟩ : Builder).Sorted "class-tree" {} {}
          built.graph := by
  have hbuild : Model.sample.build = .ok Model.sample.index := by decide +kernel
  have ht : ∀ i ∈ [2], i ∈ Model.sample.index.listed := by decide +kernel
  exact ⟨hbuild, ht, writtenAnyhow_eq Model.sample Model.sample.index
    ⟨Model.sample.index, none, .unknown⟩ hbuild rfl "class-tree" [2] ht {} {}⟩

end Builder
end Diagram
end ApiDiagrams
