import ApiDiagrams.Index
import ApiDiagrams.Validation

/-!
# Models

A model is what a model file says: entities by name, with the names that they relate to, and
recorded calls. Building it checks the names and links the entities into an index.

* `EntitySpec`, `CallSpec`, `Model`: the contents of a model file;
* `Model.build`: the index of a model.

Containment is derived from the names, so that a model never has to repeat it.
-/

namespace ApiDiagrams

/-- One entity as a model file describes it. -/
structure EntitySpec where
  name : Text.Raw := ""
  kind : Text.Raw := ""
  package : Bool := false
  root : Bool := false
  bases : List Text.Raw := []
  imports : List Text.Raw := []
  value : String := ""
  deriving Repr, Inhabited, DecidableEq

/-- One recorded call as a model file describes it. -/
structure CallSpec where
  caller : String := ""
  callee : String := ""
  deriving Repr, Inhabited, DecidableEq

/-- The contents of a model file. -/
structure Model where
  entities : List EntitySpec := []
  calls : List CallSpec := []
  /-- A profile was taken, even if it recorded no call. -/
  profiled : Bool := false
  deriving Repr, Inhabited, DecidableEq

namespace Model

/-- The names of the universal root class. -/
def rootNames : List String := ["object", "builtins.object", "__builtin__.object"]

/-- Declares one entity, without its relations. -/
def declare (ix : Index) (spec : EntitySpec) : Except Fault Index := do
  Validation.checkName spec.name
  let name := spec.name.lossy
  match EntityKind.parse? spec.kind.lossy with
  | none => .error (.coded .invalidInput (name ++ ": unknown kind " ++ spec.kind.quote))
  | some kind =>
    if (ix.lookup name).isSome then
      .error (.coded .invalidInput ("duplicate entity " ++ name))
    else
      return ix.add
        { name := Name.parse name, kind, isPackage := spec.package,
          isRoot := spec.root || rootNames.contains name }

/-- Checks a name that an entity refers to, saying in which relation. -/
def checkReference (owner relation : String) (name : Text.Raw) : Except Fault Unit :=
  match Validation.checkName name with
  | .ok () => .ok ()
  | .error f => .error (.within (owner ++ ": " ++ relation) f)

/-- Links an entity to a base. A base that is not declared is added as a class, since classes from
outside the documented code still belong in class trees. -/
def linkBase (owner : EntityId) (ownerName : String) (ix : Index) (base : Text.Raw) :
    Except Fault Index := do
  checkReference ownerName "base" base
  let base := base.lossy
  let (ix, b) :=
    match ix.lookup base with
    | some b => (ix, b)
    | none =>
      (ix.add { name := Name.parse base, kind := .classType, isRoot := rootNames.contains base },
        ix.nextId)
  let ix := ix.modify owner fun e => { e with bases := e.bases ++ [b] }
  return ix.modify b fun e => { e with subclasses := e.subclasses ++ [owner] }

/-- Notes an import of an entity. -/
def linkImport (owner : EntityId) (ownerName : String) (ix : Index) (name : Text.Raw) :
    Except Fault Index := do
  checkReference ownerName "import" name
  return ix.modify owner fun e => { e with imports := e.imports ++ [Name.parse name.lossy] }

/-- Links one declared entity to the entities that it names. -/
def link (ix : Index) (spec : EntitySpec) : Except Fault Index := do
  let name := spec.name.lossy
  match ix.lookup name with
  | none => return ix
  | some owner =>
    let ix ← spec.bases.foldlM (linkBase owner name) ix
    let ix ← spec.imports.foldlM (linkImport owner name) ix
    if spec.value = "" then return ix
    else
      let value := ix.lookup spec.value
      return ix.modify owner fun e => { e with value }

/-- Refuses an index in which a variable stands, through others, for itself. -/
def checkAliases (ix : Index) : Except Fault Unit :=
  match ix.listed.find? ix.isAliasCycle with
  | some i => .error (.coded .invalidInput
      ((ix.nameOf i).text ++ ": variable value refers back to itself"))
  | none => .ok ()

/-- Puts an entity into the module or class that its name lies in. -/
def contain (ix : Index) (i : EntityId) : Index :=
  match ix.get (ix.nameOf i).parent with
  | none => ix
  | some p =>
    if !(ix.entity p).isNamespace then ix
    else if (ix.entity i).kind = .module ∧ (ix.entity p).kind = .module then
      ix.modify p fun e => { e with isPackage := true, submodules := e.submodules ++ [i] }
    else ix.modify p fun e => { e with members := e.members ++ [i] }

/-- Records one call. -/
def recordCall (ix : Index) (call : CallSpec) : Except Fault Index :=
  match ix.lookup call.caller, ix.lookup call.callee with
  | some caller, some callee => .ok (ix.addCall caller callee)
  | _, _ => .error (.coded .notFound
      ("call " ++ call.caller ++ " -> " ++ call.callee ++ " references an unknown entity"))

/-- Checks a model and links its entities into an index. -/
def build (m : Model) : Except Fault Index := do
  let ix ← m.entities.foldlM declare Index.empty
  let ix ← m.entities.foldlM link ix
  checkAliases ix
  let ix := ix.listed.foldl contain ix
  let ix := if m.profiled then ix.enableProfile else ix
  m.calls.foldlM recordCall ix

end Model
end ApiDiagrams
