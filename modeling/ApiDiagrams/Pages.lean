import ApiDiagrams.Index
import ApiDiagrams.Text.Ascii

/-!
# Pages of the documentation

The pages that nodes lead to. A module or a class has a page of its own; a routine or a variable is
an anchor on the page of what contains it. Other names have no page.
-/

namespace ApiDiagrams
namespace Pages

/-- The page of an entity, looking up at most `fuel` containers. -/
def pageFrom (ix : Index) : (fuel : Nat) → Entity → Option String
  | fuel, e =>
    match e.kind with
    | .module => some (e.name.text ++ "-module.html")
    | .classType => some (e.name.text ++ "-class.html")
    | .routine | .variable =>
      match fuel, ix.get e.name.parent with
      | fuel + 1, some p =>
        match pageFrom ix fuel (ix.entity p) with
        | some page =>
          if page.toList.contains '#' then none else some (page ++ "#" ++ e.name.last)
        | none => none
      | _, _ => none

/-- The page of an entity. -/
def pageOf (ix : Index) (i : EntityId) : Option String :=
  pageFrom ix (ix.nameOf i).parts.length (ix.entity i)

/-- The address of the page for a name, below a base address. -/
def urlFor (ix : Index) (base name : String) : Option String := do
  let i ← ix.lookup name
  return base ++ (← pageOf ix i)

end Pages
end ApiDiagrams
