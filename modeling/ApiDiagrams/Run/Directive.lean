import ApiDiagrams.Config

/-!
# Directives

A directive asks a run for one diagram.

* `Directive`: what is asked for;
* `Directive.check`: the request makes sense;
* `Directive.ofSpec`: the request of a configuration entry; `Directive.ofFlags`: that of flags;
* `Directive.spec`: the configuration entry that says the same.
-/

namespace ApiDiagrams
namespace Run

/-- A request for one diagram. -/
structure Directive where
  kind : String
  /-- Names of entities, or patterns over them. -/
  targets : List String := []
  /-- The entity whose page shows the diagram, empty for none. -/
  current : String := ""
  options : Diagram.Options := {}
  caption : String := ""
  deriving DecidableEq, Repr, Inhabited

namespace Directive

/-- Checks a directive before any work is done. -/
def check (d : Directive) : Except Fault Unit := do
  let _ ← Diagram.Kind.parse d.kind
  if d.targets.isEmpty then .error (.coded .invalidInput (d.kind ++ ": no targets"))
  else
    if d.current ≠ "" then Validation.checkName d.current
    Validation.checkDirection d.options.dir

/-- The directive of a configuration entry of a known kind, unchecked. -/
def ofKind (kind : Diagram.Kind) (g : GraphSpec) : Directive where
  kind := kind.text
  targets := g.targets
  current := g.current
  caption := g.caption
  options :=
    { dir := Text.upperText g.dir
      style := Text.lowerText g.style
      addCallers := g.addCallers
      addCallees := g.addCallees }

/-- The directive of a configuration entry. -/
def ofSpec (g : GraphSpec) : Except Fault Directive := do
  let d := ofKind (← Diagram.Kind.parse g.kind) g
  d.check
  return d

/-- The directive that says just what an entry says, unchecked. -/
def verbatim (g : GraphSpec) : Directive where
  kind := g.kind
  targets := g.targets
  current := g.current
  caption := g.caption
  options :=
    { dir := g.dir, style := g.style, addCallers := g.addCallers, addCallees := g.addCallees }

/-- The directive of flags on the command line. The kind may be in any letter case. -/
def ofFlags (g : GraphSpec) : Except Fault Directive := do
  let kind ← Diagram.Kind.parse g.kind
  let d := verbatim { g with kind := kind.text }
  d.check
  return d

/-- The configuration entry that says the same. -/
def spec (d : Directive) : GraphSpec where
  kind := d.kind
  targets := d.targets
  current := d.current
  dir := d.options.dir
  style := d.options.style
  addCallers := d.options.addCallers
  addCallees := d.options.addCallees
  caption := d.caption

end Directive
end Run
end ApiDiagrams
