import ApiDiagrams.Dot.Graph
import ApiDiagrams.Text.Skeleton

/-!
# Contexts

A context gives out the names of graphs and the numbers of nodes for one documentation run. Names
are identifiers of at most thirty characters made from titles; a name already in use gets a number
behind it.

* `uidBase`: the name that a folded title asks for;
* `Context.candidate`, `Context.freeUid`: the name that it gets;
* `Context.newGraph`, `Context.newNode`: graphs and nodes.
-/

namespace ApiDiagrams
namespace Dot

/-- The greatest length of a graph's name. -/
def maxUidLength : Nat := 30

/-- A character of a name: small letters, digits and the underscore stay, capitals become small,
everything else is an underscore. -/
def uidChar (c : Char) : Char :=
  if Text.isLower c || Text.isDigit c || c == '_' then c
  else if Text.isUpper c then Text.lower c
  else '_'

/-- The name that a folded title asks for: never empty, never starting with a digit, never too
long. -/
def uidBase (folded : List Char) : List Char :=
  let uid := folded.map uidChar
  let uid := if uid = [] then "graph".toList else uid
  let uid := if uid.head?.any Text.isDigit then 'g' :: uid else uid
  uid.take maxUidLength

/-- The names and numbers given out so far. -/
structure Context where
  nextId : Nat := 0
  uids : List (List Char) := []
  deriving DecidableEq, Repr, Inhabited

namespace Context

/-- The `n`-th choice for a name: the base, cut so that `_n` fits behind it. -/
def candidate (base : List Char) (n : Nat) : List Char :=
  let suffix := '_' :: Nat.toDigits 10 n
  base.take (maxUidLength - suffix.length) ++ suffix

/-- The name for a base: the base itself when it is free, else its first free candidate from the
second on. Among one more candidate than there are names in use, one is free. -/
def freeUid (c : Context) (base : List Char) : List Char :=
  if base ∈ c.uids then
    (((List.range (c.uids.length + 1)).map fun k => candidate base (k + 2)).find?
      fun uid => !c.uids.contains uid).getD base
  else base

/-- Reserves the name for a base. -/
def reserve (c : Context) (base : List Char) : List Char × Context :=
  let uid := c.freeUid base
  (uid, { c with uids := uid :: c.uids })

/-- A new graph, named after its title. -/
def newGraph (c : Context) (title : String) : Graph × Context :=
  let (uid, c) := c.reserve (uidBase (Text.skeleton title.toList))
  ({ title, uid := String.ofList uid }, c)

/-- Adds a node to a graph. A node that is refused takes no number. -/
def newNode (c : Context) (g : Graph) (spec : NodeSpec) :
    Except Fault (Node × Graph × Context) := do
  let n ← spec.toNode c.nextId
  return (n, { g with nodes := g.nodes ++ [n] }, { c with nextId := c.nextId + 1 })

end Context
end Dot
end ApiDiagrams
