import ApiDiagrams.Config.Load
import ApiDiagrams.Proofs.Config.Check
import ApiDiagrams.Proofs.Effect

/-!
# Loading settings

Loading looks at files and at variables. It takes the variables of a file over into the environment
and changes nothing else, and the settings that it ends with have passed the check.

* `Config.snd_userDir`, `Config.snd_cacheDir`: asking for directories changes nothing;
* `Config.files_load`: loading leaves the files alone;
* `Config.check_of_load`: loaded settings make sense.
-/

namespace ApiDiagrams
namespace Config

variable {w : World} {c : Config} {explicit : String}

theorem snd_given (name : String) (w : World) : ((given name).run w).2 = w := rfl

theorem snd_userDir (variable_ fallback : String) (w : World) :
    ((userDir variable_ fallback).run w).2 = w := by
  unfold userDir
  rw [Effect.run_bind, snd_given]
  cases ((given variable_).run w).1 <;> rfl

theorem snd_cacheDir (c : Config) (w : World) : (c.cacheDir.run w).2 = w := by
  unfold cacheDir
  split_ifs
  · rfl
  · exact snd_userDir _ _ w

theorem snd_insist (path : String) (w : World) : ((insist path).run w).2 = w := by
  unfold insist
  rw [Effect.run_bind, Effect.get_run]
  cases w.files.stat path <;> rfl

theorem snd_userFile (w : World) : (userFile.run w).2 = w := by
  unfold userFile
  rw [Effect.run_bind, snd_userDir]
  rfl

theorem snd_find (explicit : String) (w : World) : ((find explicit).run w).2 = w := by
  unfold find
  split_ifs
  · exact snd_insist explicit w
  · rw [Effect.run_bind, snd_given]
    cases ((given pathVariable).run w).1 with
    | some path => exact snd_insist path w
    | none =>
      dsimp only
      rw [Effect.run_bind, snd_userFile]
      rfl

theorem snd_loadFile (path : String) (w : World) : ((loadFile path).run w).2 = w := by
  unfold loadFile
  rw [Effect.run_bind, Effect.get_run]
  cases w.files.read path <;> rfl

theorem files_loadVariables (w : World) : (loadVariables.run w).2.files = w.files := by
  unfold loadVariables
  rw [Effect.run_bind, Effect.get_run]
  dsimp only
  cases w.files.read variablesFile with
  | error e => cases e <;> rfl
  | ok bytes =>
    dsimp only
    cases Variables.parse? bytes <;> rfl

/-- How loading goes on when the variables have been taken over and a file, if any, has been found
and read. -/
theorem load_run : (load explicit).run w =
    match (loadVariables.run w).1 with
    | .error f => (.error f, (loadVariables.run w).2)
    | .ok () =>
      match ((find explicit).run (loadVariables.run w).2).1 with
      | .error f => (.error f, (loadVariables.run w).2)
      | .ok path =>
        match if path = "" then .ok default else ((loadFile path).run (loadVariables.run w).2).1 with
        | .error f => (.error f, (loadVariables.run w).2)
        | .ok c =>
          ((c.override (loadVariables.run w).2.env).check.map fun () =>
            c.override (loadVariables.run w).2.env, (loadVariables.run w).2) := by
  unfold load
  rw [Effect.run_bind]
  cases (loadVariables.run w).1 with
  | error f => rfl
  | ok =>
    dsimp only
    rw [Effect.run_bind, snd_find]
    cases ((find explicit).run (loadVariables.run w).2).1 with
    | error f => rfl
    | ok path =>
      dsimp only
      by_cases hpath : path = ""
      · rw [if_pos hpath, if_pos hpath]
        rfl
      · rw [if_neg hpath, if_neg hpath, Effect.run_bind, snd_loadFile]
        cases ((loadFile path).run (loadVariables.run w).2).1 <;> rfl

/-- Loading changes no more than the variables do. -/
theorem snd_load (explicit : String) (w : World) :
    ((load explicit).run w).2 = (loadVariables.run w).2 := by
  rw [load_run]
  split
  · rfl
  · split
    · rfl
    · split <;> rfl

theorem files_load (explicit : String) (w : World) :
    ((load explicit).run w).2.files = w.files := by
  rw [snd_load, files_loadVariables]

/-- Loaded settings have passed the check. -/
theorem check_of_load (h : ((load explicit).run w).1 = .ok c) : c.check = .ok () := by
  rw [load_run] at h
  split at h
  · cases h
  · split at h
    · cases h
    · split at h
      · cases h
      · next loaded _ =>
        cases hcheck : (loaded.override (loadVariables.run w).2.env).check with
        | error f =>
          rw [hcheck] at h
          cases h
        | ok =>
          rw [hcheck] at h
          cases h
          exact hcheck

end Config
end ApiDiagrams
