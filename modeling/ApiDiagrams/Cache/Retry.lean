import ApiDiagrams.Fault

/-!
# Trying again

* `retry`: tries work that may fail for a while, at most three times;
* `Fault.ofBackend`: the fault of a storage backend that did not answer.
-/

namespace ApiDiagrams

/-- The fault of a storage backend. It may go away, unless the work was called off. -/
def Fault.ofBackend : Fault → Fault
  | .cancelled => .cancelled
  | .deadline => .deadline
  | f => .transient (.unavailable f)

namespace Cache

/-- How often work is tried. -/
def attempts : Nat := 3

/-- Tries work `n` times as long as its fault may go away and nobody calls it off. -/
def retryTimes {m : Type → Type} [Monad m] {α : Type} (isCancelled : m Bool)
    (work : m (Except Fault α)) : (n : Nat) → m (Except Fault α)
  | 0 => work
  | n + 1 => do
    match ← work with
    | .ok a => return .ok a
    | .error f =>
      if !f.isTransient then return .error f
      else if ← isCancelled then return .error .cancelled
      else retryTimes isCancelled work n

/-- Tries work until it succeeds, fails for good, was called off, or was tried often enough. -/
def retry {m : Type → Type} [Monad m] {α : Type} (isCancelled : m Bool)
    (work : m (Except Fault α)) : m (Except Fault α) :=
  retryTimes isCancelled work (attempts - 1)

end Cache
end ApiDiagrams
