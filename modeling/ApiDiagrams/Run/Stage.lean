/-!
# Stages of a run

A run goes through four stages. Each has a weight, its share of the whole work, and tells the
progress display when it starts, makes a step and ends.
-/

namespace ApiDiagrams
namespace Run

/-- A stage of a run. -/
inductive Stage
  | resolve
  | build
  | render
  | index
  deriving DecidableEq, Repr, Inhabited

namespace Stage

/-- All stages, in order. -/
def all : List Stage := [.resolve, .build, .render, .index]

/-- The name of a stage. -/
def name : Stage → String
  | .resolve => "Resolving targets"
  | .build => "Building graphs"
  | .render => "Rendering graphs"
  | .index => "Writing index"

/-- The share of a stage in the whole work. -/
def weight : Stage → Nat
  | .resolve => 1
  | .build => 3
  | .render => 10
  | .index => 1

end Stage

/-- A message to the progress display. -/
inductive Progress
  | start (stage : Stage) (steps : Int)
  | step (message : String)
  | finish (stage : Stage)
  deriving DecidableEq, Repr, Inhabited

end Run
end ApiDiagrams
