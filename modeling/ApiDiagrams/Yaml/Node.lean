import ApiDiagrams.Yaml.Resolve
import ApiDiagrams.Yaml.Token

/-!
# Nodes of YAML

A document is a tree of scalars, sequences and mappings, in which an alias stands for a node that
was given a name before.

* `Node`: the tree;
* `Document`: a tree with the nodes that aliases stand for;
* `Document.first?`: the first document of a stream.
-/

namespace ApiDiagrams
namespace Yaml

/-- A node of a document. -/
inductive Node
  | scalar (tag text : String)
  | sequence (items : List Node)
  | mapping (pairs : List (Node × Node))
  /-- The `occurrence`-th alias of the document, standing for the node that was announced by the
  name last. -/
  | aliasTo (name : List Char) (occurrence anchor : Nat)
  deriving Inhabited

/-- The state of building nodes. -/
structure Parser where
  scanner : Scanner
  /-- The stems of tags by handle. -/
  handles : List (List Char × List Char) := []
  /-- The numbers of anchors by name, the latest first. -/
  names : List (List Char × Nat) := []
  /-- The nodes of the anchors that are complete. -/
  anchored : List (Nat × Node) := []
  anchors : Nat := 0
  aliases : Nat := 0

/-- Building nodes may fail. -/
abbrev Parse := StateT Parser Option

namespace Parse

/-- The next token. -/
def peek : Parse Token := do
  let p ← get
  match p.scanner.peek with
  | some (t, scanner) =>
    set { p with scanner }
    return t
  | none => failure

/-- Takes the next token. -/
def skip : Parse Unit := modify fun p => { p with scanner := p.scanner.take }

/-- The handles that every document knows. -/
def defaultHandles : List (List Char × List Char) :=
  [(['!'], ['!']), (['!', '!'], "tag:yaml.org,2002:".toList)]

/-- The short form of a tag. -/
def shortTag (tag : List Char) : String :=
  match Text.startsWith? "tag:yaml.org,2002:".toList tag with
  | some rest => String.ofList ('!' :: '!' :: rest)
  | none => String.ofList tag

/-- The full tag of a handle and a suffix; the handle must be known. -/
def expandTag (handle suffix : List Char) : Parse (List Char) := do
  if handle.isEmpty then return suffix
  else
    match (← get).handles.lookup handle with
    | some stem => if (stem ++ suffix).isEmpty then failure else return stem ++ suffix
    | none => failure

/-- The anchor and the tag in front of a node, in either order. -/
def properties : Parse (Option (List Char) × List Char) := do
  match ← peek with
  | .anchor name =>
    skip
    match ← peek with
    | .tag handle suffix =>
      skip
      return (some name, ← expandTag handle suffix)
    | _ => return (some name, [])
  | .tag handle suffix =>
    skip
    match ← peek with
    | .anchor name =>
      skip
      return (some name, ← expandTag handle suffix)
    | _ => return (none, ← expandTag handle suffix)
  | _ => return (none, [])

/-- The node of a scalar. Without a tag a quoted scalar is a text, and a plain one means what it
looks like. -/
def scalarNode (tag text : List Char) (plain : Bool) : Node :=
  let s := String.ofList text
  if tag.isEmpty || tag == ['!'] then
    if !plain then .scalar "!!str" s
    else if s = "<<" then .scalar "!!merge" s
    else .scalar (meaningOf s).tag s
  else .scalar (shortTag tag) s

/-- The node where there is none. -/
def emptyNode : Node := scalarNode [] [] true

/-- Gives a new number to an anchor, if there is one. -/
def announce (name : Option (List Char)) : Parse (Option Nat) := do
  match name with
  | none => return none
  | some name =>
    let p ← get
    set { p with names := (name, p.anchors) :: p.names, anchors := p.anchors + 1 }
    return some p.anchors

/-- Keeps the node of an anchor. -/
def keep (number : Option Nat) (n : Node) : Parse Node := do
  match number with
  | none => return n
  | some k =>
    modify fun p => { p with anchored := (k, n) :: p.anchored }
    return n

/-- The node that an alias stands for must have been announced. -/
def aliasNode (name : List Char) : Parse Node := do
  let p ← get
  match p.names.lookup name with
  | some anchor =>
    set { p with aliases := p.aliases + 1 }
    return .aliasTo name p.aliases anchor
  | none => failure

mutual

/-- A node. In a block it may be a block collection, and where `indentless` a sequence whose
hyphens stand at the column of the key. -/
def node : (fuel : Nat) → (block indentless : Bool) → Parse Node
  | 0, _, _ => failure
  | fuel + 1, block, indentless => do
    match ← peek with
    | .aliasTo name =>
      skip
      aliasNode name
    | _ =>
      let (name, tag) ← properties
      let token ← peek
      let number ← announce name
      match token with
      | .scalar text plain =>
        skip
        keep number (scalarNode tag text plain)
      | .flowSequenceStart =>
        skip
        keep number (.sequence (← flowItems fuel true))
      | .flowMappingStart =>
        skip
        keep number (.mapping (← flowPairs fuel true))
      | .blockEntry =>
        if indentless then keep number (.sequence (← indentlessItems fuel))
        else if name.isSome || !tag.isEmpty then keep number (scalarNode tag [] true)
        else failure
      | .blockSequenceStart =>
        if block then
          skip
          keep number (.sequence (← blockItems fuel))
        else if name.isSome || !tag.isEmpty then keep number (scalarNode tag [] true)
        else failure
      | .blockMappingStart =>
        if block then
          skip
          keep number (.mapping (← blockPairs fuel))
        else if name.isSome || !tag.isEmpty then keep number (scalarNode tag [] true)
        else failure
      | _ =>
        if name.isSome || !tag.isEmpty then keep number (scalarNode tag [] true) else failure

/-- The entries of a block sequence. -/
def blockItems : (fuel : Nat) → Parse (List Node)
  | 0 => failure
  | fuel + 1 => do
    match ← peek with
    | .blockEntry =>
      skip
      let item ←
        match ← peek with
        | .blockEntry | .blockEnd => pure emptyNode
        | _ => node fuel true false
      return item :: (← blockItems fuel)
    | .blockEnd =>
      skip
      return []
    | _ => failure

/-- The entries of a sequence at the column of its key. -/
def indentlessItems : (fuel : Nat) → Parse (List Node)
  | 0 => failure
  | fuel + 1 => do
    match ← peek with
    | .blockEntry =>
      skip
      let item ←
        match ← peek with
        | .blockEntry | .key | .value | .blockEnd => pure emptyNode
        | _ => node fuel true false
      return item :: (← indentlessItems fuel)
    | _ => return []

/-- The pairs of a block mapping. -/
def blockPairs : (fuel : Nat) → Parse (List (Node × Node))
  | 0 => failure
  | fuel + 1 => do
    match ← peek with
    | .key =>
      skip
      let key ←
        match ← peek with
        | .key | .value | .blockEnd => pure emptyNode
        | _ => node fuel true true
      let value ←
        match ← peek with
        | .value =>
          skip
          match ← peek with
          | .key | .value | .blockEnd => pure emptyNode
          | _ => node fuel true true
        | _ => pure emptyNode
      return (key, value) :: (← blockPairs fuel)
    | .blockEnd =>
      skip
      return []
    | _ => failure

/-- The entries of a flow sequence. An entry may be a single pair without braces. -/
def flowItems : (fuel : Nat) → (first : Bool) → Parse (List Node)
  | 0, _ => failure
  | fuel + 1, first => do
    match ← peek with
    | .flowSequenceEnd =>
      skip
      return []
    | token =>
      if !first then
        match token with
        | .flowEntry => skip
        | _ => failure
      match ← peek with
      | .flowSequenceEnd =>
        skip
        return []
      | .key =>
        skip
        let key ←
          match ← peek with
          | .value | .flowEntry | .flowSequenceEnd =>
            skip
            pure emptyNode
          | _ => node fuel false false
        let value ←
          match ← peek with
          | .value =>
            skip
            match ← peek with
            | .flowEntry | .flowSequenceEnd => pure emptyNode
            | _ => node fuel false false
          | _ => pure emptyNode
        return .mapping [(key, value)] :: (← flowItems fuel false)
      | _ =>
        let item ← node fuel false false
        return item :: (← flowItems fuel false)

/-- The pairs of a flow mapping. A key may stand alone. -/
def flowPairs : (fuel : Nat) → (first : Bool) → Parse (List (Node × Node))
  | 0, _ => failure
  | fuel + 1, first => do
    match ← peek with
    | .flowMappingEnd =>
      skip
      return []
    | token =>
      if !first then
        match token with
        | .flowEntry => skip
        | _ => failure
      match ← peek with
      | .flowMappingEnd =>
        skip
        return []
      | .key =>
        skip
        let key ←
          match ← peek with
          | .value | .flowEntry | .flowMappingEnd => pure emptyNode
          | _ => node fuel false false
        let value ←
          match ← peek with
          | .value =>
            skip
            match ← peek with
            | .flowEntry | .flowMappingEnd => pure emptyNode
            | _ => node fuel false false
          | _ => pure emptyNode
        return (key, value) :: (← flowPairs fuel false)
      | _ =>
        let key ← node fuel false false
        return (key, emptyNode) :: (← flowPairs fuel false)

end

/-- Reads the directives in front of a document. Only version 1.1 is known, and neither it nor a
handle may be given twice. -/
def directives : (fuel : Nat) → (seenVersion : Bool) → Parse Unit
  | 0, _ => failure
  | fuel + 1, seenVersion => do
    match ← peek with
    | .version major minor =>
      if seenVersion || major != 1 || minor != 1 then failure
      else
        skip
        directives fuel true
    | .tagDirective handle stem =>
      if ((← get).handles.lookup handle).isSome then failure
      else
        skip
        modify fun p => { p with handles := p.handles ++ [(handle, stem)] }
        directives fuel seenVersion
    | _ => return ()

/-- The document marks and directives in front of a document; its node; and its end. Nothing when
the stream has no document. -/
def document (fuel : Nat) : Parse (Option Node) := do
  match ← peek with
  | .streamStart => skip
  | _ => failure
  let finish (n : Node) : Parse (Option Node) := do
    match ← peek with
    | .documentEnd => skip
    | _ => pure ()
    return some n
  let addDefaults : Parse Unit :=
    modify fun p => { p with
      handles := p.handles ++ defaultHandles.filter fun (h, _) => (p.handles.lookup h).isNone }
  match ← peek with
  | .streamEnd => return none
  | .version _ _ | .tagDirective _ _ | .documentStart =>
    directives fuel false
    addDefaults
    match ← peek with
    | .documentStart =>
      skip
      match ← peek with
      | .version _ _ | .tagDirective _ _ | .documentStart | .documentEnd | .streamEnd =>
        finish emptyNode
      | _ => finish (← node fuel true false)
    | _ => failure
  | _ =>
    addDefaults
    finish (← node fuel true false)

end Parse

/-- A document: its node, and the nodes that its aliases stand for. -/
structure Document where
  root : Node
  anchored : List (Nat × Node)

/-- The first document of a stream. Nothing when there is none, or when it is ill formed. -/
def Document.first? (bytes : ByteArray) : Option Document := do
  let source := Source.read bytes
  let (root, p) ← (Parse.document (8 * source.text.length + 64)).run { scanner := .start source }
  return { root := ← root, anchored := p.anchored }

end Yaml
end ApiDiagrams
