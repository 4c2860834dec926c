import ApiDiagrams.Data.Shape
import ApiDiagrams.Yaml.Node

/-!
# Reading YAML against a shape

* `Document.read`: the datum that a document holds, if it has the shape.

A null leaves a field as it is and drops out of a list. A mapping may take over pairs from others
under the key `<<`; its own pairs come first. Names of fields must match exactly, and none may
come twice.
-/

namespace ApiDiagrams
namespace Yaml

open Data (Shape Datum)

/-- How far reading has come. -/
structure Reader where
  anchored : List (Nat × Node)
  /-- The aliases that are being followed. -/
  followed : List Nat := []
  /-- The number of nodes read. -/
  reads : Nat := 0
  /-- The number of nodes read below an alias. -/
  aliasReads : Nat := 0

/-- Reading may fail. -/
abbrev Read := StateT Reader Option

namespace Reader

/-- Of this many nodes too large a share was read below aliases: all but one in a hundred for
small documents, one in ten for very large ones. -/
def isExcessive (r : Reader) : Bool :=
  let low := 400000
  let high := 4000000
  r.aliasReads > 100 && r.reads > 1000 &&
    if r.reads ≤ low then r.aliasReads * 100 > r.reads * 99
    else if r.reads ≥ high then r.aliasReads * 10 > r.reads
    else r.aliasReads * 100 * (high - low) > r.reads * (99 * (high - low) - 89 * (r.reads - low))

end Reader

namespace Read

/-- Counts a node. -/
def count : Read Unit := do
  let r ← get
  let r := { r with reads := r.reads + 1,
                    aliasReads := r.aliasReads + (if r.followed.isEmpty then 0 else 1) }
  if r.isExcessive then failure else set r

/-- Reads what an alias stands for. An alias inside what it stands for is refused. -/
def follow {α : Type} (occurrence anchor : Nat) (read : Node → Read α) : Read α := do
  let r ← get
  if r.followed.contains occurrence then failure
  else
    match r.anchored.lookup anchor with
    | none => failure
    | some n =>
      set { r with followed := occurrence :: r.followed }
      let a ← read n
      modify fun r' => { r' with followed := r.followed }
      return a

/-- Runs a reader on a node that is not an alias. -/
def direct {α : Type} (read : Node → Read α) (n : Node) : Read α := do
  count
  match n with
  | .aliasTo _ occurrence anchor =>
    follow occurrence anchor fun n => do
      count
      read n
  | n => read n

/-- The words for a truth value besides those that every reader knows. -/
def wordFlag? (s : String) : Option Bool :=
  if ["y", "Y", "yes", "on"].contains s then some true
  else if ["n", "N", "no", "off"].contains s then some false
  else none

/-- The text of a scalar, nothing for a null. -/
def scalarText : Node → Read (Option Text.Raw)
  | .scalar tag text => do
    match ← (resolve tag text : Option _) with
    | (.null, _) => return none
    | (_, s) => return some s
  | _ => failure

/-- The truth value of a scalar, nothing for a null. -/
def scalarFlag : Node → Read (Option Bool)
  | .scalar tag text => do
    match ← (resolve tag text : Option _) with
    | (.null, _) => return none
    | (.bool b, _) => return some b
    | (.text, s) => return some (← (s.text?.bind wordFlag? : Option _))
    | _ => failure
  | _ => failure

/-- The node is null. -/
def isNull (n : Node) : Read Bool :=
  match n with
  | .scalar tag text => do return (← (resolve tag text : Option _)).1 = .null
  | _ => return false

/-- The key under which a mapping takes over pairs from others. -/
def isMergeKey : Node → Bool
  | .scalar tag text => tag = "!!merge" && text = "<<"
  | _ => false

/-- Two keys look the same. Collections all look alike, and so do aliases of one name. -/
def sameLooks : Node → Node → Bool
  | .scalar _ a, .scalar _ b => a = b
  | .sequence _, .sequence _ | .mapping _, .mapping _ => true
  | .aliasTo a _ _, .aliasTo b _ _ => a = b
  | _, _ => false

/-- Some key comes twice. -/
def hasRepeatedKey : List (Node × Node) → Bool
  | [] => false
  | (k, _) :: rest => rest.any (fun (k', _) => sameLooks k k') || hasRepeatedKey rest

/-- The fields of a record found so far. -/
structure Found where
  /-- The names of the keys seen. -/
  names : List String := []
  fields : List (String × Datum) := []

mutual

/-- The datum of a node that is not an alias, nothing for a null. -/
def value : (fuel : Nat) → Shape → Node → Read (Option Datum)
  | 0, _, _ => failure
  | fuel + 1, shape, n => do
    match shape, n with
    | .text, n => return (← scalarText n).map .text
    | .flag, n => return (← scalarFlag n).map .flag
    | .list item, .sequence ns => return some (.list (← items fuel item ns))
    | .record fields, .mapping ps => return some (.record (← pairs fuel fields false ps {}).fields)
    | .list _, n => if ← isNull n then return some (.list []) else failure
    | .record _, n => if ← isNull n then return none else failure
    | .span, _ => failure

/-- The items of a sequence that are not null. -/
def items : (fuel : Nat) → Shape → List Node → Read (List Datum)
  | 0, _, _ => failure
  | _ + 1, _, [] => return []
  | fuel + 1, shape, n :: rest => do
    let first ← direct (value fuel shape) n
    let others ← items fuel shape rest
    return first.toList ++ others

/-- Adds the pairs of a mapping to a record. A mapping that is taken over adds only what is not
there yet. -/
def pairs : (fuel : Nat) → List (String × Shape) → (takenOver : Bool) → List (Node × Node) →
    Found → Read Found
  | 0, _, _, _, _ => failure
  | fuel + 1, fields, takenOver, ps, found => do
    if hasRepeatedKey ps then failure
    let found ← ownPairs fuel fields takenOver ps found
    match ps.reverse.find? fun (k, _) => isMergeKey k with
    | none => return found
    | some (_, source) =>
      if !takenOver then ps.forM fun _ => count
      match source with
      | .sequence ns => sources fuel fields ns found
      | n => sources fuel fields [n] found

/-- Adds the pairs of a mapping except what it takes over. -/
def ownPairs : (fuel : Nat) → List (String × Shape) → (takenOver : Bool) → List (Node × Node) →
    Found → Read Found
  | 0, _, _, _, _ => failure
  | _ + 1, _, _, [], found => return found
  | fuel + 1, fields, takenOver, (k, v) :: rest, found => do
    if isMergeKey k then ownPairs fuel fields takenOver rest found
    else
      match (← direct scalarText k).map Text.Raw.lossy with
      | none => ownPairs fuel fields takenOver rest found
      | some name =>
        if takenOver && found.names.contains name then ownPairs fuel fields takenOver rest found
        else
          match fields.lookup name with
          | none => failure
          | some shape =>
            if found.names.contains name then failure
            let datum ← direct (value fuel shape) v
            ownPairs fuel fields takenOver rest
              { names := name :: found.names,
                fields := found.fields ++ (datum.map (name, ·)).toList }

/-- Takes over the pairs of mappings. -/
def sources : (fuel : Nat) → List (String × Shape) → List Node → Found → Read Found
  | 0, _, _, _ => failure
  | _ + 1, _, [], found => return found
  | fuel + 1, fields, n :: rest, found => do
    let found ← direct (fun n =>
      match n with
      | .mapping ps => pairs fuel fields true ps found
      | _ => failure) n
    sources fuel fields rest found

end

end Read

/-- The number of nodes of a tree. -/
def Node.size : Node → Nat
  | .scalar _ _ | .aliasTo _ _ _ => 1
  | .sequence ns => 1 + sizes ns
  | .mapping ps => 1 + pairSizes ps
where
  sizes : List Node → Nat
    | [] => 0
    | n :: rest => 1 + n.size + sizes rest
  pairSizes : List (Node × Node) → Nat
    | [] => 0
    | (k, v) :: rest => 1 + k.size + v.size + pairSizes rest

/-- The datum that a document holds. Nothing when the document does not have the shape. -/
def Document.read (d : Document) (shape : Shape) : Option Datum := do
  let nodes := d.anchored.foldl (fun n (_, a) => n + a.size) d.root.size
  let (datum, _) ← (Read.count *> Read.direct (Read.value (8 * nodes + 64) shape) d.root).run
    { anchored := d.anchored }
  return datum.getD .absent

end Yaml
end ApiDiagrams
