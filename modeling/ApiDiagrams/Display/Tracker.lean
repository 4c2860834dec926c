import ApiDiagrams.Display.Timings
import ApiDiagrams.Run.Stage

/-!
# Progress of a run

The stages of a run become one share of the whole work: a stage counts with its weight, and the
steps of the running stage count in equal parts.

* `Mode`: how progress is shown, and which way a verbosity asks for;
* `Tracker`: what has been heard of a run;
* `Tracker.share`: the share as an exact fraction; `Tracker.shareValue`: in double precision;
* `Tracker.receive`: one message, with the line that it shows.
-/

namespace ApiDiagrams
namespace Display

/-- How progress is shown. -/
inductive Mode
  | hide
  /-- Plain lines. -/
  | simple
  /-- Lines with emphasis, where the terminal can show it. -/
  | list
  /-- One bar that moves. -/
  | bar
  deriving DecidableEq, Repr, Inhabited

namespace Mode

/-- The word for a mode. -/
def text : Mode → String
  | .hide => "hide"
  | .simple => "simple"
  | .list => "list"
  | .bar => "bar"

/-- The mode for a verbosity; the bar needs a terminal. -/
def select (verbosity : Int) (terminal : Bool) : Mode :=
  if verbosity < 0 then .hide
  else if verbosity ≥ 2 then .list
  else if terminal then .bar
  else .simple

end Mode

/-- A share of a whole. -/
structure Share where
  num : Nat
  den : Nat
  deriving DecidableEq, Repr, Inhabited

/-- What has been heard of a run. -/
structure Tracker where
  mode : Mode
  /-- The weight of the stages that ended. -/
  finished : Nat := 0
  /-- The weight of the running stage. -/
  weight : Nat := 0
  /-- The steps that the running stage announced. -/
  steps : Int := 0
  /-- The steps that it made. -/
  step : Nat := 0
  /-- When the running stage started. -/
  startedAt : Int := 0
  /-- How long stages took. -/
  timings : List (String × Int) := []
  deriving DecidableEq, Repr, Inhabited

namespace Tracker

/-- The weight of all stages. -/
def totalWeight : Nat := Run.Stage.all.foldl (fun n s => n + s.weight) 0

/-- The steps made, at most as many as announced. -/
def stepsMade (t : Tracker) : Nat := min t.step t.steps.toNat

/-- The share of the work that is done, exactly. -/
def share (t : Tracker) : Share :=
  let s : Share :=
    if t.steps > 0 then
      ⟨t.finished * t.steps.toNat + t.weight * t.stepsMade, totalWeight * t.steps.toNat⟩
    else ⟨t.finished, totalWeight⟩
  if s.num ≤ s.den then s else ⟨1, 1⟩

/-- The share of the work that is done, in double precision. -/
def shareValue (t : Tracker) : Float :=
  let part :=
    if t.steps > 0 then
      t.weight.toFloat * t.stepsMade.toFloat / t.steps.toNat.toFloat
    else 0
  let v := (t.finished.toFloat + part) / totalWeight.toFloat
  if v < 1 then v else 1

/-- The whole percents of a share, cut toward zero. -/
def percent (v : Float) : Int := (v * 100).toInt64.toInt

/-- The whole percents of a share, at least three characters wide. -/
def percentText (v : Float) : List Char :=
  let digits := (toString (percent v)).toList
  List.replicate (3 - digits.length) ' ' ++ digits ++ ['%']

/-- The line that shows a message. -/
def line (t : Tracker) (message : String) : String :=
  match t.mode with
  | .hide | .bar => ""
  | .simple | .list =>
    "[" ++ String.ofList (percentText t.shareValue) ++ "] " ++ message ++ "\n"

/-- Hears a message at a time. -/
def receive (now : Int) (t : Tracker) : Run.Progress → Tracker × String
  | .start stage steps =>
    let t := { t with weight := stage.weight, steps, step := 0, startedAt := now }
    (t, t.line stage.name)
  | .step message =>
    let t := { t with step := t.step + 1 }
    (t, t.line message)
  | .finish stage =>
    ({ t with finished := t.finished + stage.weight, steps := 0, step := 0,
              timings := t.timings ++ [(stage.name, now - t.startedAt)] }, "")

/-- Hears messages at a time, and all lines that they show. -/
def receiveAll (now : Int) : Tracker → List Run.Progress → Tracker × String
  | t, [] => (t, "")
  | t, p :: rest =>
    let (t, l) := t.receive now p
    let (t, ls) := receiveAll now t rest
    (t, l ++ ls)

/-- The table of timings at the end of a run, if it is wanted. -/
def summary (t : Tracker) (wanted : Bool) : String :=
  if wanted && t.mode ≠ .hide && !t.timings.isEmpty then Display.timings t.timings else ""

end Tracker
end Display
end ApiDiagrams
