import ApiDiagrams.Dot.Graph
import ApiDiagrams.Text.Blank

/-!
# Linking

An `href` may name the entity whose page it should lead to, as a placeholder `<dotted.name>`.
Linking puts the address of the page in its place, or takes the `href` away when there is none.

* `Linker`: addresses by name;
* `placeholder?`: the name in a placeholder;
* `bodyHref?`: an `href` with a placeholder at the front of a text;
* `Graph.link`: links the defaults, the nodes, the edges and the body of a graph.
-/

namespace ApiDiagrams
namespace Dot

/-- The address of the page for a name, if there is one. -/
abbrev Linker := String → Option String

/-- A character of a name in a placeholder. -/
def isNameChar (c : Char) : Bool := Text.isWord c || c == '.'

/-- A name between angle brackets at the front of a text, and what follows. -/
def bracketedName? : List Char → Option (List Char × List Char)
  | '<' :: rest =>
    match Text.span isNameChar rest with
    | (c :: name, '>' :: after) => some (c :: name, after)
    | _ => none
  | _ => none

/-- The name in a value that is a placeholder and nothing else. -/
def placeholder? (value : String) : Option String :=
  match bracketedName? value.toList with
  | some (name, []) => some (String.ofList name)
  | _ => none

/-- Links the `href` among some attributes. -/
def Attrs.link (l : Linker) (a : Attrs) : Attrs :=
  match a.get? "href" with
  | none => a
  | some href =>
    match placeholder? href with
    | none => a
    | some name =>
      match l name with
      | some url => a.insert "href" url
      | none => a.erase "href"

/-- Drops a quote of either kind at the front. -/
def dropQuote : List Char → List Char
  | '\'' :: rest | '"' :: rest => rest
  | text => text

/-- An `href` with a placeholder at the front of a text: the name, whether a comma belongs to it,
and what follows. -/
def bodyHref? (text : List Char) : Option (List Char × Bool × List Char) := do
  let rest ← Text.startsWith? "href".toList text
  let rest ← Text.startsWith? ['='] (rest.dropWhile Text.isAsciiBlank)
  let (name, rest) ← bracketedName? (dropQuote (rest.dropWhile Text.isAsciiBlank))
  match (dropQuote rest).dropWhile Text.isAsciiBlank with
  | ',' :: after => return (name, true, after)
  | after => return (name, false, after)

/-- Links every `href` in a body, from left to right; `fuel` bounds the steps. -/
def linkBodyFrom (l : Linker) : (fuel : Nat) → List Char → List Char
  | 0, text => text
  | _ + 1, [] => []
  | fuel + 1, c :: rest =>
    match bodyHref? (c :: rest) with
    | some (name, comma, after) =>
      let linked :=
        match l (String.ofList name) with
        | some url => "href=\"".toList ++ url.toList ++ '"' :: (if comma then [','] else [])
        | none => []
      linked ++ linkBodyFrom l fuel after
    | none => c :: linkBodyFrom l fuel rest

/-- Links every `href` in a body. -/
def linkBody (l : Linker) (body : String) : String :=
  String.ofList (linkBodyFrom l (body.length + 1) body.toList)

/-- Links a graph: its defaults, every node, every edge and the body. -/
def Graph.link (g : Graph) (l : Linker) : Graph :=
  { g with
    nodeDefaults := g.nodeDefaults.link l
    nodes := g.nodes.map fun n => { n with attrs := n.attrs.link l }
    edgeDefaults := g.edgeDefaults.link l
    edges := g.edges.map fun e => { e with attrs := e.attrs.link l }
    body := linkBody l g.body }

end Dot
end ApiDiagrams
