import ApiDiagrams.Cache.Retry
import ApiDiagrams.Cache.Store

/-!
# Stores that are shared

A server keeps the bytes, so that several machines can use one store. The server is not part of this
library: what it answers is given, as a function of everything that was asked before.

* `Servers`: the servers that can be reached, by what they answer;
* `ask`: asks a server once;
* `Shared`, `Shared.store`: the store on a server;
* `Shared.openAt`: the store on a server that answers.
-/

namespace ApiDiagrams

/-- What a server answers to a request with when it does what it is asked. -/
abbrev ServerRequest.Answer : ServerRequest → Type
  | .ping | .set .. => Unit
  | .get _ => Option ByteArray
  -- how many of the keys were there
  | .delete _ => Nat
  | .scan _ => List String

namespace Cache

/-- What servers answer: to a request to an address, after everything that was asked before. -/
abbrev Servers := (past : List (String × ServerRequest)) → (address : String) →
  (r : ServerRequest) → Except Fault r.Answer

/-- No server can be reached. -/
def Servers.none : Servers := fun _ _ _ => .error (.plain "no connection")

/-- Asks a server once. -/
def ask (servers : Servers) (address : String) (r : ServerRequest) :
    Effect (Except Fault r.Answer) := do
  let w ← get
  set { w with asked := w.asked ++ [(address, r)] }
  return servers w.asked address r

/-- The store on a server. -/
structure Shared where
  servers : Servers
  address : String

namespace Shared

/-- What stands in front of every key, so that other users of the server keep theirs. -/
def front : String := "docgraph:"

/-- Asks the server, and again when it does not answer. -/
def tryAsk (s : Shared) (r : ServerRequest) : Effect (Except Fault r.Answer) :=
  retry (return (← get).cancelled) do
    return (← ask s.servers s.address r).mapError .ofBackend

/-- Forgets the keys of this library. What is forgotten is not tried again. -/
def clear (s : Shared) : Effect (Nat × Except Fault Unit) := do
  match ← ask s.servers s.address (.scan (front ++ "*")) with
  | .error f => return (0, .error f)
  | .ok [] => return (0, .ok ())
  | .ok keys =>
    match ← ask s.servers s.address (.delete keys) with
    | .error f => return (0, .error f)
    | .ok n => return (n, .ok ())

/-- The store. A time that has passed already is no time. -/
def store (s : Shared) : Store where
  get key := s.tryAsk (.get (front ++ key))
  set key data ttl := s.tryAsk (.set (front ++ key) data (max ttl 0))
  delete key := return (← s.tryAsk (.delete [front ++ key])).map fun _ => ()
  clear := s.clear

/-- The store on a server that answers. -/
def openAt (servers : Servers) (address : String) : Effect (Except Fault Shared) := do
  let s : Shared := { servers, address }
  return ((← s.tryAsk .ping).map fun _ => s).mapError
    (.wrapped .cache ("connect to redis at " ++ address))

end Shared
end Cache
end ApiDiagrams
