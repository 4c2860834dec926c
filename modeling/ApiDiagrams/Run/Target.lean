import ApiDiagrams.Glob
import ApiDiagrams.Text.Quoted
import ApiDiagrams.World

/-!
# Targets of a directive

* `resolveTargets`: the entities that names and patterns stand for, each once, in the order in
  which they are first met.
-/

namespace ApiDiagrams
namespace Run

/-- Adds entities that are not there yet. -/
def addNew (done found : List EntityId) : List EntityId :=
  found.foldl (fun done i => if done.contains i then done else done ++ [i]) done

/-- The entities that one target stands for. A name wins over a pattern. -/
def resolveTarget (rule : PatternRule) (ix : Index) (target : String) :
    Except Fault (List EntityId) :=
  match ix.lookup target with
  | some i => .ok [i]
  | none =>
    match ix.select rule target with
    | some found => .ok found
    | none =>
      .error (.wrapped .invalidInput ("target " ++ Text.quote target)
        (.plain "syntax error in pattern"))

/-- The record about a target that stands for nothing. -/
def unmatched (target : String) : Log.Record :=
  ⟨.warn, "Target matches no documented entity", [("target", .text target)]⟩

/-- The entities that targets stand for, after those that were found. -/
def resolveTargets (rule : PatternRule) (ix : Index) :
    (done : List EntityId) → List String → Effect (Except Fault (List EntityId))
  | done, [] => return .ok done
  | done, target :: rest => do
    match resolveTarget rule ix target with
    | .error f => return .error f
    | .ok found =>
      if found.isEmpty then Effect.log (unmatched target)
      resolveTargets rule ix (addNew done found) rest

end Run
end ApiDiagrams
