import ApiDiagrams.World

/-!
# Running effects

What the effects come to that others are made of. Whoever uses them rewrites with these lemmas and
looks no further.

* `run_bind`, `get_run`: one effect after another, and looking at the world;
* `clock_run`, `makeDirs_run`, `onFiles_run_ok`, `onFiles_run_error`: the clock and the files;
* `onFiles_run_rest`: what an operation on the files leaves alone.
-/

namespace ApiDiagrams
namespace Effect

variable {f : FileTree → Except FileFailure FileTree} {w : World}

theorem run_bind {α β : Type} (x : Effect α) (f : α → Effect β) (w : World) :
    (x >>= f).run w = (f (x.run w).1).run (x.run w).2 := rfl

theorem get_run (w : World) : (get : Effect World).run w = (w, w) := rfl

theorem clock_run (w : World) : clock.run w = (w.now, { w with now := w.now + tick }) := rfl

theorem makeDirs_run (path : String) (w : World) : (makeDirs path).run w =
    ((w.files.makeDirs path).2.mapError fun (front, e) => e.fault "mkdir" front,
      { w with files := (w.files.makeDirs path).1 }) := rfl

theorem onFiles_run_ok {t : FileTree} (h : f w.files = .ok t) :
    (onFiles f).run w = (.ok (), { w with files := t }) := by
  unfold onFiles
  rw [run_bind, get_run]
  dsimp only
  rw [h]
  rfl

theorem onFiles_run_error {e : FileFailure} (h : f w.files = .error e) :
    (onFiles f).run w = (.error e, w) := by
  unfold onFiles
  rw [run_bind, get_run]
  dsimp only
  rw [h]
  rfl

/-- An operation on the files leaves the rest of the world alone. -/
theorem onFiles_run_rest (f : FileTree → Except FileFailure FileTree) (w : World) (t : FileTree) :
    { ((onFiles f).run w).2 with files := t } = { w with files := t } := by
  cases h : f w.files with
  | ok t' => rw [onFiles_run_ok h]
  | error e => rw [onFiles_run_error h]

end Effect
end ApiDiagrams
