import ApiDiagrams.Config
import ApiDiagrams.Proofs.Run.Outcome

/-!
# What the checks of settings accept

Each check is read as a plain condition on what it looks at, so that nothing else has to look into
the checks themselves.

* `Validation.checkDirection_eq_ok_iff`, `Diagram.Kind.parse_eq_ok_iff`: directions and kinds;
* `Text.upperText_of_direction`, `Text.lowerText_of_style`: words that letter case does not touch;
* `GraphSpec.Accepted`, `Config.checkGraph_eq_ok_iff`: entries that ask for a diagram;
* `Config.check_eq_ok_iff`: all settings.
-/

namespace ApiDiagrams

/-! ### Words -/

namespace Validation

/-- A layout direction as the layout tool spells it, or none. -/
def IsDirection (dir : String) : Prop := dir = "" ∨ dir ∈ directions

instance : DecidablePred IsDirection := fun dir =>
  inferInstanceAs (Decidable (dir = "" ∨ dir ∈ directions))

theorem checkDirection_eq_ok_iff {dir : String} :
    checkDirection dir = .ok () ↔ IsDirection dir := by
  unfold checkDirection IsDirection
  split_ifs with h
  · simpa using h
  · simpa using h

/-- The check of names, on texts. -/
theorem checkName_ofString_eq_ok_iff {s : String} :
    checkName (Text.Raw.ofString s) = .ok () ↔ IsDotted s := by
  constructor
  · intro h
    have hs := isDotted_lossy h
    rwa [Text.Raw.lossy_ofString] at hs
  · intro h
    exact checkName_eq_ok_iff.2 ⟨s, rfl, h⟩

end Validation

namespace Diagram

theorem Kind.parse_eq_ok_iff {s : String} {k : Kind} :
    Kind.parse s = .ok k ↔ Text.lowerText (Text.trimText s) = k.text := by
  rw [← Kind.ofText?_eq_some_iff]
  unfold Kind.parse
  cases Kind.ofText? (Text.lowerText (Text.trimText s)) <;> simp

@[simp] theorem Kind.parse_text (k : Kind) : Kind.parse k.text = .ok k := by
  rw [Kind.parse_eq_ok_iff]
  cases k <;> decide

/-- The styles of package trees as they are spelled, and none. -/
def styles : List String := ["", umlStyle, treeStyle]

end Diagram

namespace Text

theorem upperText_of_direction {dir : String} (h : Validation.IsDirection dir) :
    upperText dir = dir := by
  rcases h with rfl | h
  · rfl
  · have hall : ∀ d ∈ Validation.directions, upperText d = d := by decide
    exact hall dir h

theorem lowerText_of_style {style : String} (h : style ∈ Diagram.styles) :
    lowerText style = style := by
  have hall : ∀ s ∈ Diagram.styles, lowerText s = s := by decide
  exact hall style h

end Text

/-! ### Entries -/

theorem Config.isStyle_iff {style : String} :
    Config.isStyle style = true ↔ Text.lowerText style ∈ Diagram.styles := by
  simp [Config.isStyle, Diagram.styles, or_assoc]

/-- An entry that the check of settings lets pass: of a kind, with targets, and with a direction and
a style that exist, all in any letter case. The entity on whose page it stands is not looked at. -/
structure GraphSpec.Accepted (g : GraphSpec) : Prop where
  kind : ∃ k, Diagram.Kind.parse g.kind = .ok k
  targets : g.targets ≠ []
  dir : Validation.IsDirection (Text.upperText g.dir)
  style : Text.lowerText g.style ∈ Diagram.styles

namespace Config

theorem checkGraph_eq_ok_iff {n : ℕ} {g : GraphSpec} :
    checkGraph n g = .ok () ↔ g.Accepted := by
  unfold checkGraph
  dsimp only
  constructor
  · intro h
    cases hkind : Diagram.Kind.parse g.kind with
    | error f =>
      rw [hkind] at h
      cases h
    | ok k =>
      rw [hkind] at h
      dsimp only at h
      by_cases htargets : g.targets.isEmpty = true
      · rw [if_pos htargets] at h
        cases h
      · rw [if_neg htargets] at h
        cases hdir : Validation.checkDirection (Text.upperText g.dir) with
        | error f =>
          rw [hdir] at h
          cases h
        | ok =>
          rw [hdir] at h
          dsimp only at h
          split_ifs at h with hstyle
          exact ⟨⟨k, hkind⟩, by simpa using htargets, Validation.checkDirection_eq_ok_iff.1 hdir,
            isStyle_iff.1 hstyle⟩
  · rintro ⟨⟨k, hkind⟩, htargets, hdir, hstyle⟩
    rw [hkind]
    dsimp only
    rw [if_neg (by simpa using htargets), Validation.checkDirection_eq_ok_iff.2 hdir]
    exact if_pos (isStyle_iff.2 hstyle)

theorem checkGraphs_eq_ok_iff {n : ℕ} {gs : List GraphSpec} :
    checkGraphs n gs = .ok () ↔ ∀ g ∈ gs, g.Accepted := by
  induction gs generalizing n with
  | nil => simp [checkGraphs]
  | cons g gs ih =>
    rw [checkGraphs, bind_eq_ok_iff, List.forall_mem_cons]
    constructor
    · rintro ⟨⟨⟩, hg, hgs⟩
      exact ⟨checkGraph_eq_ok_iff.1 hg, ih.1 hgs⟩
    · rintro ⟨hg, hgs⟩
      exact ⟨(), checkGraph_eq_ok_iff.2 hg, ih.2 hgs⟩

/-- Settings that make sense. -/
structure Accepted (c : Config) : Prop where
  format : Validation.checkFormat c.render.format = .ok ()
  engine : c.render.engine ∈ engines
  backend : c.cache.backend ∈ backends
  address : c.cache.backend = "redis" → c.cache.redisAddr ≠ ""
  ttl : 0 ≤ c.cache.ttl
  graphs : ∀ g ∈ c.graphs, g.Accepted

theorem check_eq_ok_iff {c : Config} : c.check = .ok () ↔ c.Accepted := by
  unfold check
  dsimp only
  rw [bind_eq_ok_iff]
  constructor
  · rintro ⟨⟨⟩, hformat, h⟩
    split_ifs at h with hengine hbackend haddress httl
    exact ⟨hformat, by simpa using hengine, by simpa using hbackend, by simpa using haddress,
      not_lt.1 httl, checkGraphs_eq_ok_iff.1 h⟩
  · rintro ⟨hformat, hengine, hbackend, haddress, httl, hgraphs⟩
    refine ⟨(), hformat, ?_⟩
    rw [if_neg (by simpa using hengine), if_neg (by simpa using hbackend),
      if_neg (by simpa using haddress), if_neg (not_lt.2 httl)]
    exact checkGraphs_eq_ok_iff.2 hgraphs

/-- The default settings with other entries make sense if the entries do. -/
theorem check_default_eq_ok_iff {gs : List GraphSpec} :
    ({ graphs := gs } : Config).check = .ok () ↔ ∀ g ∈ gs, g.Accepted := by
  rw [check_eq_ok_iff]
  constructor
  · intro h
    exact h.graphs
  · intro h
    refine ⟨rfl, List.mem_cons_self, List.mem_cons_self, ?_, ?_, h⟩
    · intro hredis
      exact absurd hredis (by decide : Text.Raw.ofString "file" ≠ Text.Raw.ofString "redis")
    · exact (by decide : 0 ≤ ({} : CacheSettings).ttl)

end Config
end ApiDiagrams
