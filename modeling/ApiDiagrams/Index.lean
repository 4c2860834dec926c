import ApiDiagrams.Entity

/-!
# The index of a documentation run

An index holds every entity of a run, listed in the order in which their names first appeared, and
the recorded calls between them, if a profile was taken.

* `Index`: all entities ever added, the listed ones, and the profile;
* `Index.add`, `Index.lookup`, `Index.get`: entities by name;
* `Index.addCall`, `Index.enableProfile`: the profile;
* `Index.resolve`, `Index.isAliasCycle`: following variables to what they stand for;
* `Index.longestModule`: the module that an imported name refers to;
* `Index.select`: the entities that a name or a pattern denotes.
-/

namespace ApiDiagrams

/-- The partners of entities in recorded calls, by entity, each in order of first call. -/
abbrev CallTable := List (EntityId × List EntityId)

namespace CallTable

/-- The partners recorded for an entity. -/
def find (t : CallTable) (e : EntityId) : List EntityId := (t.lookup e).getD []

/-- The entity has an entry. -/
def has (t : CallTable) (e : EntityId) : Bool := (t.lookup e).isSome

/-- Records a partner for an entity, once. -/
def record : CallTable → (key partner : EntityId) → CallTable
  | [], key, partner => [(key, [partner])]
  | (k, partners) :: rest, key, partner =>
    if k = key then
      (k, if partner ∈ partners then partners else partners ++ [partner]) :: rest
    else (k, partners) :: record rest key partner

end CallTable

/-- Who calls whom: for each routine its callers and its callees. -/
structure Profile where
  callers : CallTable := []
  callees : CallTable := []
  deriving Repr, Inhabited, DecidableEq

/-- Records one call. -/
def Profile.addCall (p : Profile) (caller callee : EntityId) : Profile where
  callers := p.callers.record callee caller
  callees := p.callees.record caller callee

/-- How patterns select paths: which patterns are well formed, and which paths they accept. -/
structure PatternRule where
  isValid : String → Bool
  accepts : (pattern path : String) → Bool

/-- The entities of a documentation run. -/
structure Index where
  /-- Every entity ever added; its position is its identity. -/
  entities : Array Entity := #[]
  /-- The entities now listed, one per name, in order of the first addition of the name. -/
  listed : List EntityId := []
  /-- The recorded calls, if a profile was taken. -/
  profile : Option Profile := none
  deriving Repr, Inhabited, DecidableEq

namespace Index

/-- The index without entities. -/
def empty : Index := {}

/-- The entity with the given number. -/
def entity (ix : Index) (i : EntityId) : Entity := ix.entities.getD i default

/-- The name of the entity with the given number. -/
def nameOf (ix : Index) (i : EntityId) : Name := (ix.entity i).name

/-- The listed entity whose name is written so. -/
def lookup (ix : Index) (name : String) : Option EntityId :=
  ix.listed.find? fun i => (ix.nameOf i).text == name

/-- The listed entity of the given name. -/
def get (ix : Index) (name : Name) : Option EntityId := ix.lookup name.text

/-- The number that the next entity added will have. -/
def nextId (ix : Index) : EntityId := ix.entities.size

/-- Adds an entity under its name. An entity of the same name leaves its place in the list to the
new one; what referred to it still does. -/
def add (ix : Index) (e : Entity) : Index :=
  let i := ix.nextId
  let listed :=
    match ix.get e.name with
    | some old => ix.listed.map fun j => if j = old then i else j
    | none => ix.listed ++ [i]
  { ix with entities := ix.entities.push e, listed }

/-- Changes one entity in place. -/
def modify (ix : Index) (i : EntityId) (f : Entity → Entity) : Index :=
  { ix with entities := ix.entities.modify i f }

/-- The number of listed entities. -/
def size (ix : Index) : Nat := ix.listed.length

/-- A profile was taken, even if it recorded no call. -/
def hasProfile (ix : Index) : Bool := ix.profile.isSome

/-- Marks the index as profiled. -/
def enableProfile (ix : Index) : Index := { ix with profile := some (ix.profile.getD {}) }

/-- Records a call. -/
def addCall (ix : Index) (caller callee : EntityId) : Index :=
  { ix with profile := some ((ix.profile.getD {}).addCall caller callee) }

/-- The recorded callers of an entity. -/
def callers (ix : Index) (i : EntityId) : List EntityId :=
  (ix.profile.getD {}).callers.find i

/-- The recorded callees of an entity. -/
def callees (ix : Index) (i : EntityId) : List EntityId :=
  (ix.profile.getD {}).callees.find i

/-- The entity takes part in a recorded call. -/
def isProfiled (ix : Index) (i : EntityId) : Bool :=
  (ix.profile.getD {}).callers.has i || (ix.profile.getD {}).callees.has i

/-- What a variable stands for; nothing for other entities and for unknown values. -/
def aliasOf (ix : Index) (i : EntityId) : Option EntityId :=
  if (ix.entity i).kind = .variable then (ix.entity i).value else none

/-- Follows variables from `i`, never to an entity in `seen`, for at most `fuel` steps. -/
def resolveFrom (ix : Index) : (fuel : Nat) → (seen : List EntityId) → EntityId → EntityId
  | 0, _, i => i
  | fuel + 1, seen, i =>
    match ix.aliasOf i with
    | some v => if v ∈ seen then i else ix.resolveFrom fuel (i :: seen) v
    | none => i

/-- What an entity stands for after following variables. A cycle of variables resolves to the last
one before it closes. -/
def resolve (ix : Index) (i : EntityId) : EntityId :=
  ix.resolveFrom (ix.entities.size + 1) [] i

/-- Follows variables from `i` and reports whether one of `seen` comes back. -/
def cyclesFrom (ix : Index) : (fuel : Nat) → (seen : List EntityId) → EntityId → Bool
  | 0, _, _ => false
  | fuel + 1, seen, i =>
    if (ix.entity i).kind = .variable then
      if i ∈ seen then true
      else
        match (ix.entity i).value with
        | some v => ix.cyclesFrom fuel (i :: seen) v
        | none => false
    else false

/-- Following variables from the entity leads back to a variable already visited. -/
def isAliasCycle (ix : Index) (i : EntityId) : Bool :=
  ix.cyclesFrom (ix.entities.size + 2) [] i

/-- The module that a name with these identifiers resolves to, if it names one. -/
def moduleAt (ix : Index) (parts : List String) : Option EntityId :=
  match ix.get ⟨parts⟩ with
  | some i =>
    let j := ix.resolve i
    if (ix.entity j).kind = .module then some j else none
  | none => none

/-- The module that an imported name refers to: that of the longest nonempty beginning of the name
that resolves to a module. -/
def longestModule (ix : Index) (name : Name) : Option EntityId :=
  ((List.range name.parts.length).reverse.map fun k => name.parts.take (k + 1)).findSome?
    ix.moduleAt

/-- The entities that a target denotes: the one that it names, or else, in the order of the index,
those whose path its pattern accepts. An ill-formed pattern denotes nothing. -/
def select (rule : PatternRule) (ix : Index) (target : String) : Option (List EntityId) :=
  match ix.lookup target with
  | some i => some [i]
  | none =>
    let pattern := (Name.parse target).path
    if rule.isValid pattern then
      some (ix.listed.filter fun i => rule.accepts pattern (ix.nameOf i).path)
    else none

end Index
end ApiDiagrams
