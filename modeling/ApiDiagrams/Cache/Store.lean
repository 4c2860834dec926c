import ApiDiagrams.World

/-!
# Stores

A store keeps bytes under keys for some time.

* `Store`: its operations;
* `Store.null`: keeps nothing; `Store.failing`: fails at everything.
-/

namespace ApiDiagrams
namespace Cache

/-- A place that keeps bytes under keys. -/
structure Store where
  /-- The bytes under a key, if they are there. -/
  get : (key : String) → Effect (Except Fault (Option ByteArray))
  /-- Keeps bytes for a time in nanoseconds, forever when the time is not positive. -/
  set : (key : String) → (data : ByteArray) → (ttl : Int) → Effect (Except Fault Unit)
  /-- Forgets a key. -/
  delete : (key : String) → Effect (Except Fault Unit)
  /-- Forgets all keys; says how many were forgotten, and whether that is all. -/
  clear : Effect (Nat × Except Fault Unit)

namespace Store

/-- Keeps nothing. -/
def null : Store where
  get _ := return .ok none
  set _ _ _ := return .ok ()
  delete _ := return .ok ()
  clear := return (0, .ok ())

/-- Fails at everything, with one fault for reading and one for writing. -/
def failing (read write : Fault) : Store where
  get _ := return .error read
  set _ _ _ := return .error write
  delete _ := return .error write
  clear := return (0, .error write)

end Store
end Cache
end ApiDiagrams
