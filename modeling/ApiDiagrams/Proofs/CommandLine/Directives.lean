import ApiDiagrams.CommandLine.Generate
import ApiDiagrams.Proofs.Config.Load
import ApiDiagrams.Proofs.Run.Directive

/-!
# The directives of a command

The diagrams of a command are those of the settings, or the one that its flags ask for. The settings
are checked when they are loaded, before they become directives, and the flags are not checked as
settings are; neither check covers all of the other.

* `Session.exists_directives_iff`: when a command has directives;
* `Session.directives_of_checked`: what checked settings still can fail of;
* `Directive.ofSettings`, `Differs`: where flags and settings that say the same differ;
* `Session.directives_agree_iff`: they differ nowhere else.
-/

namespace ApiDiagrams

open Run (Directive IsPage)
open Validation (IsDirection)

namespace CommandLine
namespace Session

variable {c : Config} {o : GenerateOptions} {ds : List Directive}

theorem directives_of_kind (h : o.graph.kind ≠ "") :
    directives c o = .ok ds ↔ ∃ d, Directive.ofFlags o.graph = .ok d ∧ ds = [d] := by
  unfold directives
  rw [if_pos h, bind_eq_ok_iff]
  refine exists_congr fun d => and_congr_right fun _ => ?_
  exact ⟨fun hd => (Except.ok.inj hd).symm, fun hd => congrArg Except.ok hd.symm⟩

theorem directives_of_settings (h : o.graph.kind = "") :
    directives c o = .ok ds ↔ c.graphs.mapM Directive.ofSpec = .ok ds ∧ ds ≠ [] := by
  unfold directives
  rw [if_neg (not_not.2 h), bind_eq_ok_iff]
  constructor
  · rintro ⟨ds', hmap, hds⟩
    split_ifs at hds with hempty
    cases hds
    exact ⟨hmap, mt List.isEmpty_iff.2 hempty⟩
  · rintro ⟨hmap, hne⟩
    exact ⟨ds, hmap, if_neg (mt List.isEmpty_iff.1 hne)⟩

/-- When a command has directives: by flags if they name a kind, else by the settings. -/
theorem exists_directives_iff : (∃ ds, directives c o = .ok ds) ↔
    if o.graph.kind = "" then
      c.graphs ≠ [] ∧ ∀ g ∈ c.graphs, g.Named ∧ IsDirection (Text.upperText g.dir)
    else o.graph.Named ∧ IsDirection o.graph.dir := by
  split_ifs with hkind
  · have hall : (∃ ds, c.graphs.mapM Directive.ofSpec = .ok ds) ↔
        ∀ g ∈ c.graphs, g.Named ∧ IsDirection (Text.upperText g.dir) := by
      simp only [exists_mapM_iff, Directive.exists_ofSpec_iff]
    rw [← hall]
    have hnil {ds : List Directive} (hmap : c.graphs.mapM Directive.ofSpec = .ok ds) :
        ds = [] ↔ c.graphs = [] := by
      rw [← List.length_eq_zero_iff, ← List.length_eq_zero_iff,
        (mapM_eq_ok_iff.1 hmap).length_eq]
    constructor
    · rintro ⟨ds, hds⟩
      obtain ⟨hmap, hne⟩ := (directives_of_settings hkind).1 hds
      exact ⟨mt (hnil hmap).2 hne, ds, hmap⟩
    · rintro ⟨hne, ds, hmap⟩
      exact ⟨ds, (directives_of_settings hkind).2 ⟨hmap, mt (hnil hmap).1 hne⟩⟩
  · rw [← Directive.exists_ofFlags_iff]
    constructor
    · rintro ⟨ds, hds⟩
      obtain ⟨d, hd, -⟩ := (directives_of_kind hkind).1 hds
      exact ⟨d, hd⟩
    · rintro ⟨d, hd⟩
      exact ⟨[d], (directives_of_kind hkind).2 ⟨d, hd, rfl⟩⟩

/-- Of checked settings, only the names of pages are left to be wrong. -/
theorem exists_directives_iff_of_checked (hc : c.check = .ok ()) (hkind : o.graph.kind = "") :
    (∃ ds, directives c o = .ok ds) ↔ c.graphs ≠ [] ∧ ∀ g ∈ c.graphs, IsPage g.current := by
  rw [exists_directives_iff, if_pos hkind]
  refine and_congr_right fun _ => forall₂_congr fun g hg => ?_
  have haccepted := (Config.check_eq_ok_iff.1 hc).graphs g hg
  rw [haccepted.named_iff]
  exact and_iff_left haccepted.dir

/-- **What checked settings still can fail of.** Settings are checked when they are loaded. An entry
of checked settings becomes a directive exactly when it names its page properly or names none, and
if not, the fault is what is wrong with that name. The directives have one of the kinds, a direction
and a style in their exact spelling, and every builder builds them. The settings as a whole become
directives exactly when there are entries and all pages are named properly. -/
theorem directives_of_checked (c : Config) :
    (∀ path w, ((Config.load path).run w).1 = .ok c → c.check = .ok ()) ∧
    (c.check = .ok () →
      (∀ g ∈ c.graphs,
        ((∃ d, Directive.ofSpec g = .ok d) ↔ IsPage g.current) ∧
        (∀ f, Directive.ofSpec g = .error f →
          Validation.checkName (Text.Raw.ofString g.current) = .error f) ∧
        ∀ d, Directive.ofSpec g = .ok d → d.Exact ∧
          ∀ (b : Diagram.Builder) (targets : List EntityId) (context : Dot.Context),
            ∃ built, b.build d.kind targets d.options context = .ok built) ∧
      ∀ o : GenerateOptions, o.graph.kind = "" →
        ((∃ ds, directives c o = .ok ds) ↔
          c.graphs ≠ [] ∧ ∀ g ∈ c.graphs, IsPage g.current)) := by
  refine ⟨fun path w h => Config.check_of_load h, fun hc => ⟨fun g hg => ?_, fun o ho => ?_⟩⟩
  · have haccepted := (Config.check_eq_ok_iff.1 hc).graphs g hg
    refine ⟨?_, fun f hf => Directive.error_of_ofSpec haccepted hf, fun d hd => ?_⟩
    · rw [Directive.exists_ofSpec_iff, haccepted.named_iff]
      exact and_iff_left haccepted.dir
    · have hexact := Directive.exact_of_ofSpec haccepted hd
      refine ⟨hexact, fun b targets context => ?_⟩
      exact (Run.exists_build_iff (Directive.check_of_ofSpec hd) b targets context).2 hexact.kind
  · exact exists_directives_iff_of_checked hc ho

/-- Settings with one class tree, in letters of any case, for the page of some entity. -/
def classTreeFor (current : String) : Config where
  graphs := [{ kind := "Class-Tree", targets := ["m.*"], current, dir := "lr", style := "UML" }]

/-- Such settings in their file. -/
def classTreeWorld : World where
  files := ⟨[(["docgraph.toml"], .file ("[[graph]]\nkind = \"Class-Tree\"\ntargets = [\"m.*\"]\n" ++
    "current = \"m.a\"\ndir = \"lr\"\nstyle = \"UML\"\n").toUTF8)]⟩

theorem directives_of_capital_letters : ∃ c, ((Config.load "").run classTreeWorld).1 = .ok c ∧
    c.check = .ok () ∧ ∃ ds, directives c {} = .ok ds := by
  have hload : ((Config.load "").run classTreeWorld).1 =
      .ok { classTreeFor "m.a" with path := "docgraph.toml" } := by decide +kernel
  obtain ⟨hloaded, hchecked⟩ :=
    directives_of_checked { classTreeFor "m.a" with path := "docgraph.toml" }
  have hcheck := hloaded "" classTreeWorld hload
  obtain ⟨-, hdirectives⟩ := hchecked hcheck
  refine ⟨_, hload, hcheck, (hdirectives {} rfl).2 ⟨List.cons_ne_nil _ _, ?_⟩⟩
  intro g hg
  rw [List.mem_singleton.1 hg]
  exact Or.inr ⟨by decide, by decide⟩

/-- The check of settings accepts any text as the name of a page. -/
theorem page_name_is_checked_late : ¬ ∀ c : Config, c.check = .ok () →
    ∀ g ∈ c.graphs, ∃ d, Directive.ofSpec g = .ok d := by
  intro h
  obtain ⟨d, hd⟩ := h (classTreeFor "a b") (by decide +kernel) _ List.mem_cons_self
  obtain ⟨hnamed, -⟩ := Directive.exists_ofSpec_iff.1 ⟨d, hd⟩
  rcases hnamed.current with hnone | hname
  · exact absurd hnone (by decide)
  · exact absurd hname.parts (by decide)

end Session
end CommandLine

/-! ### Flags and settings -/

/-- The entries say the same, up to the letter case of their kinds, directions and styles, and to the
blanks around their kinds. -/
structure GraphSpec.SameWords (g g' : GraphSpec) : Prop where
  kind : Text.lowerText (Text.trimText g'.kind) = Text.lowerText (Text.trimText g.kind)
  dir : Text.upperText g'.dir = Text.upperText g.dir
  style : Text.lowerText g'.style = Text.lowerText g.style
  rest : { g' with kind := g.kind, dir := g.dir, style := g.style } = g

namespace Run.Directive

variable {g g' : GraphSpec} {d : Directive}

/-- The directive of an entry that is the only one of the settings. -/
def ofSettings (g : GraphSpec) : Except Fault Directive := do
  Config.check { graphs := [g] }
  ofSpec g

theorem ofSettings_eq_ok_iff : ofSettings g = .ok d ↔
    ∃ k, Diagram.Kind.parse g.kind = .ok k ∧ g.Named ∧ IsDirection (Text.upperText g.dir) ∧
      Text.lowerText g.style ∈ Diagram.styles ∧ d = ofKind k g := by
  unfold ofSettings
  rw [bind_eq_ok_iff]
  constructor
  · rintro ⟨⟨⟩, hcheck, hd⟩
    have haccepted := Config.check_default_eq_ok_iff.1 hcheck g List.mem_cons_self
    obtain ⟨k, hk, hname, hdir, rfl⟩ := ofSpec_eq_ok_iff.1 hd
    exact ⟨k, hk, hname, hdir, haccepted.style, rfl⟩
  · rintro ⟨k, hk, hname, hdir, hstyle, rfl⟩
    refine ⟨(), Config.check_default_eq_ok_iff.2 fun g' hg' => ?_,
      ofSpec_eq_ok_iff.2 ⟨k, hk, hname, hdir, rfl⟩⟩
    rw [List.mem_singleton.1 hg']
    exact ⟨hname.kind, hname.targets, hdir, hstyle⟩

theorem exists_ofSettings_iff : (∃ d, ofSettings g = .ok d) ↔
    g.Named ∧ IsDirection (Text.upperText g.dir) ∧ Text.lowerText g.style ∈ Diagram.styles := by
  simp only [ofSettings_eq_ok_iff]
  have hmade := exists_made_iff (g := g) (ofKind · g)
    (P := IsDirection (Text.upperText g.dir) ∧ Text.lowerText g.style ∈ Diagram.styles)
  simpa only [and_assoc] using hmade

theorem parse_congr {s s' : String} {k : Diagram.Kind}
    (h : Text.lowerText (Text.trimText s') = Text.lowerText (Text.trimText s)) :
    Diagram.Kind.parse s' = .ok k ↔ Diagram.Kind.parse s = .ok k := by
  rw [Diagram.Kind.parse_eq_ok_iff, Diagram.Kind.parse_eq_ok_iff, h]

/-- Letter case makes no difference in the settings. -/
theorem ofSettings_congr (h : g.SameWords g') : ofSettings g' = .ok d ↔ ofSettings g = .ok d := by
  obtain ⟨hkind, hdir, hstyle, hrest⟩ := h
  have htargets : g'.targets = g.targets := by rw [← hrest]
  have hcurrent : g'.current = g.current := by rw [← hrest]
  have hsame (k : Diagram.Kind) : ofKind k g' = ofKind k g := by
    rw [← hrest]
    unfold ofKind
    simp only [hdir, hstyle]
  have hnamed : g'.Named ↔ g.Named :=
    GraphSpec.named_congr (fun _ => parse_congr hkind) htargets hcurrent
  simp only [ofSettings_eq_ok_iff, parse_congr hkind, hnamed, hdir, hstyle, hsame]

/-- The letter case of the kind makes no difference in the flags. -/
theorem ofFlags_congr {kind : String}
    (h : Text.lowerText (Text.trimText kind) = Text.lowerText (Text.trimText g.kind)) :
    ofFlags { g with kind } = .ok d ↔ ofFlags g = .ok d := by
  have hnamed : GraphSpec.Named { g with kind } ↔ g.Named :=
    GraphSpec.named_congr (fun _ => parse_congr h) rfl rfl
  simp only [ofFlags_eq_ok_iff, parse_congr h, hnamed]

/-- Words in their exact spelling are taken over by settings as they are by flags. -/
theorem ofKind_eq_verbatim (hdir : IsDirection g.dir) (hstyle : g.style ∈ Diagram.styles)
    (k : Diagram.Kind) : ofKind k g = verbatim { g with kind := k.text } := by
  unfold ofKind verbatim
  rw [Text.upperText_of_direction hdir, Text.lowerText_of_style hstyle]

end Run.Directive

namespace CommandLine

/-- Where flags and settings that say the same differ. -/
inductive Differs (g : GraphSpec) : Prop
  /-- The flags take any style as it is. The settings know the styles and their letters. -/
  | style (named : g.Named) (dir : IsDirection g.dir) (style : g.style ∉ Diagram.styles)
  /-- The flags refuse a direction in other letters. -/
  | direction (named : g.Named) (dir : ¬ IsDirection g.dir)
      (upper : IsDirection (Text.upperText g.dir)) (style : Text.lowerText g.style ∈ Diagram.styles)

namespace Session

variable {c : Config} {o : GenerateOptions}

theorem agree_of_not_differs {g : GraphSpec} (h : ¬ Differs g) (d : Directive) :
    Directive.ofFlags g = .ok d ↔ Directive.ofSettings g = .ok d := by
  rw [Directive.ofFlags_eq_ok_iff, Directive.ofSettings_eq_ok_iff]
  refine exists_congr fun k => and_congr_right fun _ => and_congr_right fun hname => ?_
  constructor
  · rintro ⟨hdir, rfl⟩
    have hstyle : g.style ∈ Diagram.styles := by
      by_contra hother
      exact h (.style hname hdir hother)
    refine ⟨(Text.upperText_of_direction hdir).symm ▸ hdir,
      (Text.lowerText_of_style hstyle).symm ▸ hstyle, ?_⟩
    exact (Directive.ofKind_eq_verbatim hdir hstyle k).symm
  · rintro ⟨hupper, hlower, rfl⟩
    have hdir : IsDirection g.dir := by
      by_contra hother
      exact h (.direction hname hother hupper hlower)
    have hstyle : g.style ∈ Diagram.styles := by
      by_contra hother
      exact h (.style hname hdir hother)
    exact ⟨hdir, Directive.ofKind_eq_verbatim hdir hstyle k⟩

theorem not_differs_of_agree {g : GraphSpec}
    (h : ∀ d, Directive.ofFlags g = .ok d ↔ Directive.ofSettings g = .ok d) : ¬ Differs g := by
  intro hdiffers
  cases hdiffers with
  | style named dir style =>
    obtain ⟨d, hd⟩ := Directive.exists_ofFlags_iff.2 ⟨named, dir⟩
    obtain ⟨k, -, -, -, hflags⟩ := Directive.ofFlags_eq_ok_iff.1 hd
    obtain ⟨k', -, -, -, hlower, hsettings⟩ := Directive.ofSettings_eq_ok_iff.1 ((h d).1 hd)
    -- the style of the directive is that of the flags, and it is in small letters
    have heq : g.style = Text.lowerText g.style :=
      congrArg (fun d : Directive => d.options.style) (hflags.symm.trans hsettings)
    exact style (heq ▸ hlower)
  | direction named dir upper style =>
    obtain ⟨d, hd⟩ := Directive.exists_ofSettings_iff.2 ⟨named, upper, style⟩
    exact dir (Directive.exists_ofFlags_iff.1 ⟨d, (h d).2 hd⟩).2

/-- **Where flags and settings agree.** For every diagram that flags ask for by its kind, an entry
that says the same gives the same directive, or is refused as well, unless the two differ in one of
two ways: the flags take a style that is none, or not in small letters, as it is, and draw the tree
of icons; or they refuse a direction that is not in capital letters. The settings ask for a proper
page name, targets and a kind as the flags do, and no letter case in them makes a difference; in the
flags that of the kind makes none. -/
theorem directives_agree_iff (h : o.graph.kind ≠ "") :
    ((∀ d, directives c o = .ok [d] ↔ Directive.ofSettings o.graph = .ok d) ↔
      ¬ Differs o.graph) ∧
    (∀ ds, directives c o = .ok ds → ∃ d, ds = [d]) ∧
    ((∃ ds, directives c o = .ok ds) ↔ o.graph.Named ∧ IsDirection o.graph.dir) ∧
    ((∃ d, Directive.ofSettings o.graph = .ok d) ↔ o.graph.Named ∧
      IsDirection (Text.upperText o.graph.dir) ∧
        Text.lowerText o.graph.style ∈ Diagram.styles) ∧
    (∀ g, o.graph.SameWords g → ∀ d,
      Directive.ofSettings g = .ok d ↔ Directive.ofSettings o.graph = .ok d) ∧
    (∀ kind, kind ≠ "" →
      Text.lowerText (Text.trimText kind) = Text.lowerText (Text.trimText o.graph.kind) →
      ∀ ds, directives c { o with graph := { o.graph with kind } } = .ok ds ↔
        directives c o = .ok ds) ∧
    ∀ d, directives c o = .ok [d] → o.graph.style ∉ Diagram.styles →
      ∀ (b : Diagram.Builder) (targets : List EntityId) (context : Dot.Context),
        b.build d.kind targets d.options context =
          b.build d.kind targets { d.options with style := Diagram.treeStyle } context := by
  have hone (d : Directive) : directives c o = .ok [d] ↔ Directive.ofFlags o.graph = .ok d := by
    simp [directives_of_kind h]
  refine ⟨?_, ?_, ?_, Directive.exists_ofSettings_iff, ?_, ?_, ?_⟩
  · simp only [hone]
    exact ⟨not_differs_of_agree, agree_of_not_differs⟩
  · intro ds hds
    obtain ⟨d, -, hd⟩ := (directives_of_kind h).1 hds
    exact ⟨d, hd⟩
  · rw [exists_directives_iff, if_neg h]
  · intro g hg d
    exact Directive.ofSettings_congr hg
  · intro kind hne hkind ds
    rw [directives_of_kind hne, directives_of_kind h]
    exact exists_congr fun d => and_congr_left fun _ => Directive.ofFlags_congr hkind
  · intro d hd hstyle b targets context
    obtain ⟨k, -, -, -, rfl⟩ := Directive.ofFlags_eq_ok_iff.1 ((hone d).1 hd)
    exact Diagram.Builder.build_of_other_style hstyle k.text

/-- Flags for a package tree with a direction and a style. -/
def packageTreeWith (dir style : String) : GenerateOptions where
  graph := { kind := "package-tree", targets := ["m"], dir, style }

theorem packageTree_named (dir style : String) : (packageTreeWith dir style).graph.Named :=
  ⟨⟨.packageTree, Diagram.Kind.parse_text .packageTree⟩, List.cons_ne_nil _ _, Or.inl rfl⟩

theorem directives_agree_of_exact_words : (packageTreeWith "LR" "uml").graph.kind ≠ "" ∧
    ∀ d, directives {} (packageTreeWith "LR" "uml") = .ok [d] ↔
      Directive.ofSettings (packageTreeWith "LR" "uml").graph = .ok d := by
  have hkind : (packageTreeWith "LR" "uml").graph.kind ≠ "" := by decide
  refine ⟨hkind, (directives_agree_iff hkind).1.2 fun hdiffers => ?_⟩
  cases hdiffers with
  | style named dir style => exact style (by decide)
  | direction named dir upper style => exact dir (by decide)

/-- A direction in small letters is refused by the flags only, and a style in capital letters draws
the other kind of tree by the flags only. -/
theorem flags_and_settings_differ :
    ¬ (∀ (c : Config) (o : GenerateOptions), o.graph.kind ≠ "" →
      ((∃ ds, directives c o = .ok ds) ↔ ∃ d, Directive.ofSettings o.graph = .ok d)) ∧
    ¬ ∀ (c : Config) (o : GenerateOptions) (d d' : Directive), o.graph.kind ≠ "" →
      directives c o = .ok [d] → Directive.ofSettings o.graph = .ok d' → d = d' := by
  constructor
  · intro h
    have hkind : (packageTreeWith "lr" "").graph.kind ≠ "" := by decide
    have hsettings := Directive.exists_ofSettings_iff.2
      ⟨packageTree_named "lr" "", Or.inr (by decide), by decide⟩
    have hflags := exists_directives_iff.1 ((h {} _ hkind).2 hsettings)
    rw [if_neg hkind] at hflags
    exact absurd hflags.2 (by decide)
  · intro h
    have heq := h {} (packageTreeWith "" "UML")
      (Directive.verbatim (packageTreeWith "" "UML").graph)
      (Directive.ofKind .packageTree (packageTreeWith "" "UML").graph)
      (by decide) (by decide +kernel) (by decide +kernel)
    exact absurd (congrArg (fun d : Directive => d.options.style) heq) (by decide)

end Session
end CommandLine
end ApiDiagrams
