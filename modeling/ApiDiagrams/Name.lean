import ApiDiagrams.Text.Ascii

/-!
# Dotted names

Documented entities are named by identifiers joined with dots, as in `pkg.mod.Class`.

* `Name`: the identifiers, outermost first;
* `Name.parse`, `Name.text`: reading and writing;
* `Name.parent`, `Name.last`: the two ends;
* `Name.dominates`: one name is the namespace that another lives in;
* `Name.relativeTo`: the short form of a name inside a context.
-/

namespace ApiDiagrams

/-- A fully qualified name, as its identifiers. -/
structure Name where
  parts : List String
  deriving DecidableEq, Repr, Inhabited

namespace Name

/-- The name that a dotted text writes; the empty text writes the empty name. -/
def parse (s : String) : Name :=
  if s = "" then ⟨[]⟩ else ⟨(Text.splitOn '.' s.toList).map String.ofList⟩

/-- The identifiers joined by dots. -/
def text (n : Name) : String := String.intercalate "." n.parts

/-- The identifiers joined by slashes, as path patterns see them. -/
def path (n : Name) : String := String.intercalate "/" n.parts

/-- The last identifier, empty for the empty name. -/
def last (n : Name) : String := n.parts.getLastD ""

/-- The name without its last identifier. -/
def parent (n : Name) : Name := ⟨n.parts.dropLast⟩

/-- The name is nonempty and the other one starts with it. -/
def dominates (n o : Name) : Bool := !n.parts.isEmpty && n.parts.isPrefixOf o.parts

/-- Drops the identifiers that both lists start with, but never the last one of the first list. -/
def dropShared : (parts context : List String) → List String
  | p :: q :: rest, c :: context =>
    if p = c then dropShared (q :: rest) context else p :: q :: rest
  | parts, _ => parts

/-- The name as it is written inside the context: without the leading identifiers that it shares
with it. The last identifier always stays. -/
def relativeTo (n context : Name) : Name := ⟨dropShared n.parts context.parts⟩

/-- The order of names: identifier by identifier, a name before those that it dominates. -/
def le (a b : Name) : Bool := !b.parts.lex a.parts fun s t => decide (s < t)

end Name
end ApiDiagrams
