import ApiDiagrams.Display.Bar
import ApiDiagrams.Proofs.Run.Course
import ApiDiagrams.Proofs.Run.Files
import Mathlib.Algebra.Order.Floor.Ring
import Mathlib.Data.Rat.Floor
import Mathlib.Tactic

/-!
# Progress never goes back

The share of the work that is done is a rational number: the weight of the stages that are over, and
of the running stage as much as it has made of its steps. No message of a run lowers it, and none
takes it beyond the whole.

* `Tracker.portion`: the share as a rational number, and `value_share`: that it is the one that is
  reported;
* `Tracker.Expected`: a message that makes sense after what was heard, and `portion_le_after`: it
  never lowers the share;
* `Tracker.sensible_of_course`: all messages of a run make sense;
* `climbs_of_execute`: what the display shows during a run.
-/

namespace ApiDiagrams
namespace Display

open Run (Stage Progress Course)

/-- The rational number that a share stands for. -/
def Share.value (s : Share) : ℚ := s.num / s.den

/-- The whole percents of a share, cut toward zero. -/
def percents (x : ℚ) : ℤ := ⌊x * 100⌋

/-- The columns of the bar that a share fills, cut toward zero. -/
def filled (x : ℚ) : ℤ := ⌊x * Bar.columns⌋

namespace Tracker

variable {t : Tracker}

/-! ### The share that is done -/

/-- What the running stage has done of its weight: its steps count in equal parts. -/
def part (t : Tracker) : ℚ :=
  if 0 < t.steps then (t.weight : ℚ) * min (t.step : ℚ) (t.steps : ℚ) / (t.steps : ℚ) else 0

/-- The share of the work that is done: the stages that are over, and part of the running one. -/
def portion (t : Tracker) : ℚ := (t.finished + t.part) / totalWeight

theorem part_of_idle (h : t.steps = 0) : t.part = 0 := if_neg (by omega)

theorem part_nonneg (t : Tracker) : 0 ≤ t.part := by
  unfold part
  split_ifs with h
  · have hsteps : (0 : ℚ) ≤ t.steps := by exact_mod_cast h.le
    positivity
  · exact le_rfl

/-- Of a stage no more than its weight is counted. -/
theorem part_le (t : Tracker) : t.part ≤ t.weight := by
  unfold part
  split_ifs with h
  · have hsteps : (0 : ℚ) < t.steps := by exact_mod_cast h
    rw [div_le_iff₀ hsteps]
    gcongr
    exact min_le_right _ _
  · exact Nat.cast_nonneg _

theorem portion_nonneg (t : Tracker) : 0 ≤ t.portion := by
  have hpart := t.part_nonneg
  unfold portion
  positivity

/-- What is reported is the share itself, as long as that is not beyond the whole. -/
theorem value_share (h : t.portion ≤ 1) : t.share.value = t.portion := by
  have htotal : (0 : ℚ) < totalWeight := by norm_num [totalWeight, Stage.all, Stage.weight]
  by_cases hs : 0 < t.steps
  · obtain ⟨n, hn⟩ := Int.eq_ofNat_of_zero_le hs.le
    have hpos : (0 : ℚ) < n := by
      rw [hn] at hs
      exact_mod_cast hs
    have hvalue : t.portion =
        ((t.finished * n + t.weight * min t.step n : ℕ) : ℚ) / ((totalWeight * n : ℕ) : ℚ) := by
      rw [portion, part, if_pos hs, hn]
      push_cast
      field_simp
    have hle : t.finished * n + t.weight * min t.step n ≤ totalWeight * n := by
      rw [hvalue, div_le_one (by push_cast; exact mul_pos htotal hpos)] at h
      exact_mod_cast h
    have hsteps : t.steps.toNat = n := by omega
    simp only [share, stepsMade, hsteps, if_pos hs, gt_iff_lt, if_pos hle, Share.value, hvalue]
  · have hvalue : t.portion = t.finished / totalWeight := by
      rw [portion, part, if_neg hs, add_zero]
    have hle : t.finished ≤ totalWeight := by
      rw [hvalue, div_le_one htotal] at h
      exact_mod_cast h
    simp only [share, gt_iff_lt, if_neg hs, if_pos hle, Share.value, hvalue]

/-! ### One message -/

/-- There is room for the running stage in the whole. -/
structure Fits (t : Tracker) : Prop where
  finished : t.finished ≤ totalWeight
  running : 0 < t.steps → t.finished + t.weight ≤ totalWeight

theorem Fits.portion_le_one (h : t.Fits) : t.portion ≤ 1 := by
  have htotal : (0 : ℚ) < totalWeight := by norm_num [totalWeight, Stage.all, Stage.weight]
  rw [portion, div_le_one htotal]
  by_cases hs : 0 < t.steps
  · calc (t.finished : ℚ) + t.part ≤ t.finished + t.weight := by gcongr; exact t.part_le
      _ ≤ totalWeight := by exact_mod_cast h.running hs
  · rw [part, if_neg hs, add_zero]
    exact_mod_cast h.finished

/-- What has been heard after one more message at a time. -/
def after (t : Tracker) (m : ℤ × Progress) : Tracker := (t.receive m.1 m.2).1

/-- A message that makes sense after what has been heard: a stage starts when none is running, and
ends while it is running, and there is room for it. -/
inductive Expected (t : Tracker) : Progress → Prop
  | start {stage : Stage} (steps : ℤ) (idle : t.steps = 0)
      (room : t.finished + stage.weight ≤ totalWeight) : Expected t (.start stage steps)
  | step (message : String) : Expected t (.step message)
  | finish {stage : Stage} (running : t.weight = stage.weight)
      (room : t.finished + stage.weight ≤ totalWeight) : Expected t (.finish stage)

theorem Fits.after {m : ℤ × Progress} (h : t.Fits) (hm : t.Expected m.2) : (t.after m).Fits := by
  obtain ⟨now, p⟩ := m
  cases hm with
  | start steps idle room => exact ⟨h.finished, fun _ => room⟩
  | step message => exact ⟨h.finished, h.running⟩
  | finish running room => exact ⟨room, fun h0 => absurd h0 (lt_irrefl 0)⟩

/-- No message that makes sense lowers the share. -/
theorem portion_le_after {m : ℤ × Progress} (hm : t.Expected m.2) :
    t.portion ≤ (t.after m).portion := by
  obtain ⟨now, p⟩ := m
  unfold portion
  gcongr ?_ / _
  cases hm with
  | start steps idle room =>
    -- a stage that starts has made no step, and the one before it is over
    rw [part_of_idle idle]
    exact add_le_add_right (part_nonneg _) _
  | step message =>
    refine add_le_add_right ?_ _
    unfold part
    change _ ≤ if 0 < t.steps then
      (t.weight : ℚ) * min ((t.step + 1 : ℕ) : ℚ) (t.steps : ℚ) / (t.steps : ℚ) else 0
    split_ifs with h
    · have hsteps : (0 : ℚ) < t.steps := by exact_mod_cast h
      push_cast
      gcongr
      linarith
    · exact le_rfl
  | finish running room =>
    -- a stage that ends counts with its whole weight
    change (t.finished : ℚ) + t.part ≤ ((t.finished + _ : ℕ) : ℚ) + 0
    rw [← running]
    push_cast
    linarith [t.part_le]

/-! ### All messages of a run -/

/-- What has been heard after messages at their times. -/
def hear (t : Tracker) (ms : List (ℤ × Progress)) : Tracker := ms.foldl after t

/-- All messages make sense, each after those before it. -/
def Sensible (t : Tracker) : List (ℤ × Progress) → Prop
  | [] => True
  | m :: ms => t.Expected m.2 ∧ (t.after m).Sensible ms

theorem sensible_append {ms ms' : List (ℤ × Progress)} :
    t.Sensible (ms ++ ms') ↔ t.Sensible ms ∧ (t.hear ms).Sensible ms' := by
  induction ms generalizing t with
  | nil => simp [Sensible, hear]
  | cons m ms ih => simp [Sensible, hear, ih, and_assoc]

theorem Fits.hear {ms : List (ℤ × Progress)} (h : t.Fits) (hms : t.Sensible ms) :
    (t.hear ms).Fits := by
  induction ms generalizing t with
  | nil => exact h
  | cons m ms ih => exact ih (h.after hms.1) hms.2

/-- Steps always make sense, and change nothing but their number. -/
theorem sensible_steps {ms : List (ℤ × Progress)} {steps : List String}
    (h : ms.map Prod.snd = steps.map .step) :
    t.Sensible ms ∧ t.hear ms = { t with step := t.step + steps.length } := by
  induction ms generalizing t steps with
  | nil =>
    obtain rfl : steps = [] := by simpa using h.symm
    exact ⟨trivial, rfl⟩
  | cons m ms ih =>
    obtain ⟨now, p⟩ := m
    obtain ⟨s, steps, rfl, hp, hms⟩ := List.map_eq_cons_iff.1 h.symm
    obtain rfl : Progress.step s = p := hp
    obtain ⟨hsensible, hhear⟩ := ih (t := t.after (now, .step s)) hms.symm
    refine ⟨⟨.step s, hsensible⟩, hhear.trans ?_⟩
    simp [after, receive, Nat.add_assoc, Nat.add_comm 1]

/-- All messages of a course make sense when there is room for its stages, and at the end of a whole
one just these have been added. -/
theorem sensible_of_course {stages : List Stage} {ended : Bool} {ps : List Progress}
    (h : Course stages ended ps) {ms : List (ℤ × Progress)} (hms : ms.map Prod.snd = ps)
    (idle : t.steps = 0) (room : t.finished + (stages.map Stage.weight).sum ≤ totalWeight) :
    t.Sensible ms ∧ (ended = true → (t.hear ms).steps = 0 ∧
      (t.hear ms).finished = t.finished + (stages.map Stage.weight).sum) := by
  induction h generalizing t ms with
  | stopped stages =>
    obtain rfl : ms = [] := by simpa using hms
    exact ⟨trivial, fun h => by cases h⟩
  | ended =>
    obtain rfl : ms = [] := by simpa using hms
    exact ⟨trivial, fun _ => ⟨idle, rfl⟩⟩
  | cut stage rest le =>
    obtain ⟨⟨now, p⟩, ms, rfl, hp, hsteps⟩ := List.map_eq_cons_iff.1 hms
    obtain rfl : p = .start stage _ := hp
    rw [List.map_cons, List.sum_cons] at room
    exact ⟨⟨.start _ idle (by omega), (sensible_steps hsteps).1⟩, fun h => by cases h⟩
  | @stage stage rest ended ps steps more ih =>
    obtain ⟨⟨now, p⟩, ms, rfl, hp, htail⟩ := List.map_eq_cons_iff.1 hms
    obtain rfl : p = .start stage _ := hp
    obtain ⟨ms₁, ms₂, rfl, hsteps, hlast⟩ := List.map_eq_append_iff.1 htail
    obtain ⟨⟨late, p⟩, ms₃, rfl, hp, hmore⟩ := List.map_eq_cons_iff.1 hlast
    obtain rfl : p = .finish stage := hp
    rw [List.map_cons, List.sum_cons] at room ⊢
    obtain ⟨hsensible, hhear⟩ :=
      sensible_steps (t := t.after (now, .start stage steps.length)) hsteps
    -- after its steps the stage has its weight still, and ends
    have hend : ((t.after (now, .start stage steps.length)).hear ms₁).Expected (.finish stage) := by
      rw [hhear]
      exact .finish rfl (by change t.finished + _ ≤ _; omega)
    obtain ⟨hrest, hfinal⟩ := ih
      (t := ((t.after (now, .start stage steps.length)).hear ms₁).after (late, .finish stage)) hmore
      rfl (by rw [hhear]; change t.finished + stage.weight + _ ≤ _; omega)
    refine ⟨⟨.start _ idle (by omega), sensible_append.2 ⟨hsensible, hend, hrest⟩⟩, fun h => ?_⟩
    have hall : t.hear ((now, .start stage steps.length) :: (ms₁ ++ (late, .finish stage) :: ms₃)) =
        (((t.after (now, .start stage steps.length)).hear ms₁).after (late, .finish stage)).hear
          ms₃ := by
      simp [hear]
    obtain ⟨hsteps', hfinished⟩ := hfinal h
    rw [hall]
    refine ⟨hsteps', hfinished.trans ?_⟩
    rw [hhear]
    change t.finished + stage.weight + _ = _
    omega

end Tracker

/-! ### What the display shows -/

/-- From one message to the next the display moves on, and stays within the whole. -/
structure Climbs (t t' : Tracker) : Prop where
  /-- The share is the one that is reported. -/
  reported : t'.share.value = t'.portion
  nonneg : 0 ≤ t.portion
  le : t.portion ≤ t'.portion
  le_one : t'.portion ≤ 1
  percents_nonneg : 0 ≤ percents t.portion
  percents_le : percents t.portion ≤ percents t'.portion
  percents_le_hundred : percents t'.portion ≤ 100
  /-- The bar consists of filled columns and of empty ones, as many as it has together. -/
  bar : ∃ full empty : ℕ, filled t'.portion = full ∧ full + empty = Bar.columns ∧
    Bar.cells full = List.replicate full '█' ++ List.replicate empty '░'

theorem climbs_after {t : Tracker} {m : ℤ × Progress} (h : t.Fits) (hm : t.Expected m.2) :
    Climbs t (t.after m) := by
  have hle := Tracker.portion_le_after hm
  have hone := (h.after hm).portion_le_one
  have hfilled : filled (t.after m).portion ≤ (Bar.columns : ℕ) := by
    have hcolumns : (t.after m).portion * Bar.columns ≤ Bar.columns :=
      mul_le_of_le_one_left (Nat.cast_nonneg _) hone
    exact Int.floor_le_iff.2 (by push_cast; linarith)
  have hpos : 0 ≤ filled (t.after m).portion :=
    Int.floor_nonneg.2 (mul_nonneg (Tracker.portion_nonneg _) (Nat.cast_nonneg _))
  obtain ⟨full, hfull⟩ := Int.eq_ofNat_of_zero_le hpos
  refine ⟨Tracker.value_share hone, t.portion_nonneg, hle, hone, ?_, ?_, ?_,
    full, Bar.columns - full, hfull, by omega, rfl⟩
  · exact Int.floor_nonneg.2 (mul_nonneg t.portion_nonneg (by norm_num))
  · exact Int.floor_mono (mul_le_mul_of_nonneg_right hle (by norm_num))
  · exact Int.floor_le_iff.2 (by push_cast; linarith)

theorem climbs_of_sensible {t : Tracker} {ms before after : List (ℤ × Progress)}
    {m : ℤ × Progress} (h : t.Fits) (hms : t.Sensible ms) (hsplit : ms = before ++ m :: after) :
    Climbs (t.hear before) (t.hear (before ++ [m])) := by
  rw [hsplit, Tracker.sensible_append] at hms
  have hhear : t.hear (before ++ [m]) = (t.hear before).after m := by simp [Tracker.hear]
  rw [hhear]
  exact climbs_after (h.hear hms.1) hms.2.1

/-- **Progress never goes back.** Whatever a run is about and however it ends, each of its messages
moves the display on, whenever it is heard; at the end of a successful run all is done, but for the
last stage when the page of all diagrams is not wanted. -/
theorem climbs_of_execute {r : Run.Runner} (hr : r.renderer.Quiet) {ix : Index}
    {ds : List Run.Directive} {opts : Run.Options} {w w' : World} {res : Except Fault Run.Result}
    (h : (r.execute ix ds opts).run w = (res, w')) :
    ∃ ps, w'.progress = w.progress ++ ps ∧
      ∀ (mode : Mode) (ms : List (ℤ × Progress)), ms.map Prod.snd = ps →
        (∀ before m after, ms = before ++ m :: after →
          Climbs (Tracker.hear { mode } before) (Tracker.hear { mode } (before ++ [m]))) ∧
        (res.isOk = true →
          (Tracker.hear { mode } ms).portion = if opts.noIndex then 14 / 15 else 1) := by
  obtain ⟨ps, hps, hcourse⟩ := Run.tells_execute hr ix ds opts w
  rw [h] at hps hcourse
  refine ⟨ps, hps, fun mode ms hms => ?_⟩
  have hfits : Tracker.Fits { mode } := ⟨Nat.zero_le _, fun h0 => absurd h0 (lt_irrefl 0)⟩
  have hsum : (opts.stages.map Stage.weight).sum = if opts.noIndex then 14 else 15 := by
    unfold Run.Options.stages
    split_ifs <;> rfl
  have htotal : Tracker.totalWeight = 15 := rfl
  obtain ⟨hsensible, hend⟩ := Tracker.sensible_of_course (t := { mode }) hcourse hms rfl (by
    rw [hsum, htotal]
    split_ifs <;> simp)
  refine ⟨fun before m after hsplit => climbs_of_sensible hfits hsensible hsplit, fun hok => ?_⟩
  obtain ⟨hsteps, hfinished⟩ := hend hok
  rw [hsum] at hfinished
  rw [Tracker.portion, Tracker.part_of_idle hsteps, hfinished, htotal]
  split_ifs <;> norm_num

/-- A run of one diagram without the page of all diagrams. -/
theorem climbs_of_module_run : ∃ ps, (Run.moduleRun "png").2.progress = ps ∧
    ∀ (mode : Mode) (ms : List (ℤ × Progress)), ms.map Prod.snd = ps →
      (∀ before m after, ms = before ++ m :: after →
        Climbs (Tracker.hear { mode } before) (Tracker.hear { mode } (before ++ [m]))) ∧
      (Tracker.hear { mode } ms).portion = 14 / 15 := by
  obtain ⟨res, hres⟩ := Run.exists_module_run
  have hrun := Run.eq_of_fst_eq hres
  have hquiet : Run.threeFormats.renderer.Quiet := Render.Renderer.quiet_scripted 0 _
  obtain ⟨ps, hps, hshown⟩ := climbs_of_execute hquiet hrun
  refine ⟨ps, hps.trans (List.nil_append ps), fun mode ms hms => ?_⟩
  obtain ⟨hclimbs, hend⟩ := hshown mode ms hms
  exact ⟨hclimbs, hend rfl⟩

end Display
end ApiDiagrams
