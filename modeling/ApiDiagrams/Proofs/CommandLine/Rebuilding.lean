import ApiDiagrams.Proofs.CommandLine.Directives

/-!
# Rebuilds that the settings make fail

A rebuild loads the settings again. When they cannot be loaded nothing at all has happened. Loaded
settings are installed before they become directives, and stay installed when that fails; the files
are left alone in both cases.

* `Rejection`: the two ways in which settings make a rebuild fail;
* `Session.rebuild_of_rejection`: what such a rebuild leaves behind;
* `Session.rejection_iff`: which settings are rejected after they were loaded;
* `Session.kept_iff_of_rejection`: when the session stays as it was.
-/

namespace ApiDiagrams
namespace CommandLine

open Run (Directive IsPage)
open Validation (IsDirection)

/-- The settings make a rebuild fail, with a fault, and the given settings are in force after it. -/
inductive Rejection (s : Session) (o : GenerateOptions) (w : World) : Fault → Config → Prop
  /-- They cannot be loaded. -/
  | load {f : Fault} (fails : ((Config.load s.configPath).run w).1 = .error f) :
    Rejection s o w f s.config
  /-- They are loaded, but do not become directives. -/
  | directives {f : Fault} {c : Config} (loads : ((Config.load s.configPath).run w).1 = .ok c)
      (fails : Session.directives c o = .error f) :
    Rejection s o w f c

namespace Session

variable {s : Session} {model : String} {o : GenerateOptions} {w : World} {f : Fault} {c : Config}

theorem generate_run_of_directives_error (h : directives s.config o = .error f) :
    (s.generate model o).run w = (.error f, w) := by
  unfold generate
  rw [h]
  rfl

theorem rebuild_run_of_load_error (h : ((Config.load s.configPath).run w).1 = .error f) :
    (s.rebuild model o).run w = ((s, .error f), ((Config.load s.configPath).run w).2) := by
  unfold rebuild
  rw [Effect.run_bind, h]
  rfl

theorem rebuild_run_of_load (h : ((Config.load s.configPath).run w).1 = .ok c) :
    (s.rebuild model o).run w =
      let generated := (({ s with config := c } : Session).generate model o).run
        ((Config.load s.configPath).run w).2
      (({ s with config := c }, generated.1.map fun _ => ()), generated.2) := by
  unfold rebuild
  rw [Effect.run_bind, h]
  rfl

/-- A rebuild that the settings make fail has done nothing but load and install them. -/
theorem rebuild_of_rejection (h : Rejection s o w f c) :
    (s.rebuild model o).run w =
      (({ s with config := c }, .error f), ((Config.load s.configPath).run w).2) := by
  cases h with
  | load fails => exact rebuild_run_of_load_error fails
  | directives loads fails =>
    rw [rebuild_run_of_load loads]
    dsimp only
    rw [generate_run_of_directives_error (s := { s with config := c }) fails]
    rfl

theorem exists_fault_iff : (∃ f, directives c o = .error f) ↔ ¬ ∃ ds, directives c o = .ok ds := by
  cases directives c o <;> simp

/-- Which settings are rejected after they were loaded: those without entries or with an improper
name of a page, or, whatever the settings, flags for a diagram that cannot be. -/
theorem rejection_iff (h : ((Config.load s.configPath).run w).1 = .ok c) :
    (∃ f, Rejection s o w f c) ↔
      if o.graph.kind = "" then c.graphs = [] ∨ ∃ g ∈ c.graphs, ¬ IsPage g.current
      else ¬ (o.graph.Named ∧ IsDirection o.graph.dir) := by
  have hrejected : (∃ f, Rejection s o w f c) ↔ ∃ f, directives c o = .error f := by
    refine exists_congr fun f => ⟨fun hr => ?_, fun hf => .directives h hf⟩
    cases hr with
    | load fails =>
      rw [h] at fails
      cases fails
    | directives loads fails => exact fails
  rw [hrejected, exists_fault_iff]
  split_ifs with hkind
  · rw [exists_directives_iff_of_checked (Config.check_of_load h) hkind, not_and_or, not_not]
    simp only [not_forall, exists_prop]
  · rw [exists_directives_iff, if_neg hkind]

/-- A session with other settings in force is the same one only if the settings are. -/
theorem install_eq_iff : ({ s with config := c } : Session) = s ↔ c = s.config := by
  constructor
  · intro h
    exact congrArg Session.config h
  · rintro rfl
    rfl

/-- **What a rebuild leaves behind that the settings make fail.** It returns the fault and leaves all
files as they were. If the settings could not be loaded, the session is as it was. If they were
loaded but became no directives, they are in force now, so that the session is as it was only if
they are those that were in force before; this happens to settings without entries or with an
improper name of a page, and, under any settings, with flags for a diagram that cannot be. -/
theorem kept_iff_of_rejection (s : Session) (model : String) (o : GenerateOptions) (w : World) :
    (∀ f c, Rejection s o w f c →
      ((s.rebuild model o).run w).1.2 = .error f ∧
      ((s.rebuild model o).run w).2.files = w.files ∧
      (((s.rebuild model o).run w).1.1 = s ↔ c = s.config)) ∧
    (∀ f, ((Config.load s.configPath).run w).1 = .error f → Rejection s o w f s.config) ∧
    ∀ c, ((Config.load s.configPath).run w).1 = .ok c →
      ((∃ f, Rejection s o w f c) ↔
        if o.graph.kind = "" then c.graphs = [] ∨ ∃ g ∈ c.graphs, ¬ IsPage g.current
        else ¬ (o.graph.Named ∧ IsDirection o.graph.dir)) := by
  refine ⟨fun f c h => ?_, fun f h => .load h, fun c h => rejection_iff h⟩
  rw [rebuild_of_rejection h]
  exact ⟨rfl, Config.files_load s.configPath w, install_eq_iff⟩

/-- A session with settings for a class tree. -/
def withClassTree : Session where
  config := classTreeFor "m"

/-- The file of the settings cannot be read as such. -/
def strayWorld : World where
  files := ⟨[(["docgraph.toml"], .file "[[graph".toUTF8)]⟩

/-- Settings that cannot be loaded leave the session as it was. Without a file the default settings are
loaded, which have no entries: a session with the same settings is as it was, another one is not. -/
theorem kept_of_stray_settings :
    ((∃ f, ((Config.load withClassTree.configPath).run strayWorld).1 = .error f) ∧
      ((withClassTree.rebuild "m.json" {}).run strayWorld).1.1 = withClassTree ∧
      ((withClassTree.rebuild "m.json" {}).run strayWorld).2.files = strayWorld.files) ∧
    (∃ f, Rejection {} {} {} f .default ∧ Rejection withClassTree {} {} f .default) ∧
    (((({} : Session).rebuild "m.json" {}).run {}).1.1 = {}) ∧
    (((withClassTree.rebuild "m.json" {}).run {}).1.1 ≠ withClassTree) ∧
    ((withClassTree.rebuild "m.json" {}).run {}).2.files = {} := by
  have hfails : ∃ f, ((Config.load withClassTree.configPath).run strayWorld).1 = .error f :=
    ⟨.wrapped .invalidInput "parse config" (.plain "malformed document"), by decide +kernel⟩
  obtain ⟨f, hf⟩ := hfails
  obtain ⟨hrejected, hload, -⟩ := kept_iff_of_rejection withClassTree "m.json" {} strayWorld
  obtain ⟨-, hfiles, hkept⟩ := hrejected f withClassTree.config (hload f hf)
  have hdefault : ((Config.load "").run {}).1 = .ok .default := by decide +kernel
  obtain ⟨f', hf'⟩ : ∃ f, directives .default {} = .error f := ⟨_, rfl⟩
  obtain ⟨-, -, hsame⟩ := (kept_iff_of_rejection {} "m.json" {} {}).1 f' .default
    (.directives hdefault hf')
  obtain ⟨-, hfiles', hother⟩ := (kept_iff_of_rejection withClassTree "m.json" {} {}).1 f' .default
    (.directives hdefault hf')
  exact ⟨⟨⟨f, hf⟩, hkept.2 rfl, hfiles⟩, ⟨f', .directives hdefault hf', .directives hdefault hf'⟩,
    hsame.2 rfl, fun heq => absurd (hother.1 heq) (by decide), hfiles'⟩

/-- When the file of the settings is gone, a rebuild fails and leaves the default settings in
force. -/
theorem settings_are_replaced : ¬ ∀ (s : Session) (model : String) (o : GenerateOptions) (w : World)
    (f : Fault) (c : Config), ((Config.load s.configPath).run w).1 = .ok c →
      directives c o = .error f → ((s.rebuild model o).run w).1.1.config = s.config := by
  intro h
  have hload : ((Config.load withClassTree.configPath).run {}).1 = .ok .default := by
    decide +kernel
  obtain ⟨f, hf⟩ : ∃ f, directives .default {} = .error f := ⟨_, rfl⟩
  have hkept := h withClassTree "m.json" {} {} f .default hload hf
  rw [rebuild_of_rejection (.directives hload hf)] at hkept
  have hsame : Config.default = withClassTree.config := hkept
  exact absurd hsame (by decide)

end Session
end CommandLine
end ApiDiagrams
