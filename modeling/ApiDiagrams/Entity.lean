import ApiDiagrams.Name

/-!
# Documented entities

* `EntityKind`: modules, classes, routines and variables, with the words that model files use;
* `Entity`: one documented entity and its relations to others.

Relations hold the number of the other entity in its index, not its name: an entity that is taken
out of an index is still what its neighbours refer to.
-/

namespace ApiDiagrams

/-- What a documented entity is. -/
inductive EntityKind
  /-- A module or a package. -/
  | module
  | classType
  /-- A function or a method. -/
  | routine
  /-- A name that may stand for another entity. -/
  | variable
  deriving DecidableEq, Repr, Inhabited

namespace EntityKind

/-- The word for the kind in model files. -/
def text : EntityKind → String
  | .module => "module"
  | .classType => "class"
  | .routine => "routine"
  | .variable => "variable"

/-- The kind that a word of a model file names. -/
def parse? : String → Option EntityKind
  | "module" | "package" => some .module
  | "class" => some .classType
  | "routine" | "function" | "method" => some .routine
  | "variable" => some .variable
  | _ => none

/-- The kinds in the order of their numbers. -/
def all : List EntityKind := [.module, .classType, .routine, .variable]

/-- The number of the kind. -/
def number : EntityKind → Nat
  | .module => 0
  | .classType => 1
  | .routine => 2
  | .variable => 3

/-- The word for a kind given by its number; a number without a kind is shown. -/
def textOfNumber (n : Int) : String :=
  match n with
  | .ofNat k =>
    match all[k]? with
    | some kind => kind.text
    | none => "kind(" ++ toString k ++ ")"
  | .negSucc k => "kind(-" ++ toString (k + 1) ++ ")"

@[simp] theorem parse?_text (k : EntityKind) : parse? k.text = some k := by cases k <;> rfl

end EntityKind

/-- The number of an entity in its index, which is its identity. -/
abbrev EntityId := Nat

/-- One documented entity. -/
structure Entity where
  name : Name
  kind : EntityKind
  /-- A module that may contain submodules. -/
  isPackage : Bool := false
  /-- The universal root class, which class trees leave out. -/
  isRoot : Bool := false
  /-- Modules: the direct submodules. -/
  submodules : List EntityId := []
  /-- Classes: the direct bases. -/
  bases : List EntityId := []
  /-- Classes: the direct subclasses. -/
  subclasses : List EntityId := []
  /-- Modules and classes: the other entities that they contain. -/
  members : List EntityId := []
  /-- Modules: the names that they import, inside the index or not. -/
  imports : List Name := []
  /-- Variables: what they stand for, if known. -/
  value : Option EntityId := none
  deriving Repr, Inhabited, DecidableEq

namespace Entity

/-- The entity contains members. -/
def isNamespace (e : Entity) : Bool := e.kind = .module || e.kind = .classType

end Entity
end ApiDiagrams
