import ApiDiagrams.Text.Utf8
import ApiDiagrams.Toml.Scalar

/-!
# Documents of TOML

A document is built key by key. A table that only a longer key mentioned may still be defined; one
that was defined may not be defined again.

* `Draft`: a document as far as it was read;
* `Document`: a whole document, with its keys in the order of the text;
* `Document.parse?`: reading.
-/

namespace ApiDiagrams
namespace Toml

/-- A document as far as it was read. -/
structure Draft where
  root : Table := []
  /-- The table that keys are added to. -/
  context : Path := []
  /-- The tables that only longer keys mentioned. -/
  implied : List Path := []
  /-- The keys whose latest value is a plain array. -/
  arrays : List Path := []
  /-- All keys, the latest first. -/
  keys : List Path := []

/-- Changes the table at a path. In an array of tables the last row is meant. Nothing when no table
stands there. -/
def alterTable (f : Table → Option Table) : Path → Table → Option Table
  | [], t => f t
  | k :: rest, t =>
    match t.lookup k with
    | some (.table inner) => do
      let inner ← alterTable f rest inner
      return t.map fun (k', v) => if k' == k then (k', .table inner) else (k', v)
    | some (.tables rows) => do
      let last ← rows.getLast?
      let last ← alterTable f rest last
      return t.map fun (k', v) =>
        if k' == k then (k', .tables (rows.dropLast ++ [last])) else (k', v)
    | _ => none

/-- The table at a path. -/
def tableAt? : Path → Table → Option Table
  | [], t => some t
  | k :: rest, t =>
    match t.lookup k with
    | some (.table inner) => tableAt? rest inner
    | some (.tables rows) => rows.getLast?.bind (tableAt? rest)
    | _ => none

/-- Puts a value under a key of a table. -/
def putEntry (key : String) (v : Value) (t : Table) : Table :=
  if (t.lookup key).isSome then t.map fun (k, old) => if k == key then (k, v) else (k, old)
  else t ++ [(key, v)]

namespace Draft

/-- Marks a table as mentioned only. -/
def imply (d : Draft) (p : Path) : Draft := { d with implied := p :: d.implied }

/-- A table is no longer mentioned only. -/
def define (d : Draft) (p : Path) : Draft := { d with implied := d.implied.filter (· ≠ p) }

/-- Notes whether the value of a key of the current table is a plain array. -/
def noteArray (d : Draft) (key : String) (isArray : Bool) : Draft :=
  let p := d.context ++ (if key = "" then [] else [key])
  let p := if p.isEmpty then [""] else p
  let others := d.arrays.filter (· ≠ p)
  { d with arrays := if isArray then p :: others else others }

/-- Adds a value to the current table. A value that is already there may only be an array whose
rows were collected, or a table that was mentioned only. -/
def setValue (d : Draft) (key : String) (v : Value) : Option Draft := do
  let p := d.context ++ [key]
  let table ← tableAt? d.context d.root
  let put (d : Draft) : Option Draft := do
    return { d with root := ← alterTable (fun t => some (putEntry key v t)) d.context d.root }
  match table.lookup key with
  | none => put d
  | some _ =>
    if d.arrays.contains p then put (d.define p)
    else if d.implied.contains p then some (d.define p)
    else none

/-- Makes the tables on the way to a path, which are mentioned only. -/
def makeParents (d : Draft) : (done parents : Path) → Option Draft
  | _, [] => some d
  | done, k :: rest => do
    let p := done ++ [k]
    let table ← tableAt? done d.root
    match table.lookup k with
    | some (.table _) | some (.tables _) => makeParents d p rest
    | some _ => none
    | none =>
      let root ← alterTable (fun t => some (t ++ [(k, .table [])])) done d.root
      makeParents (imply { d with root } p) p rest
termination_by _ parents => parents.length

/-- Adds a row to an array of tables. -/
def addRow (key : String) (t : Table) : Option Table :=
  match t.lookup key with
  | none => some (t ++ [(key, .tables [[]])])
  | some (.tables rows) => some (putEntry key (.tables (rows ++ [[]])) t)
  | some _ => none

/-- Opens a table, or a new row of an array of tables. -/
def openTable (d : Draft) (p : Path) (row : Bool) : Option Draft := do
  let parents := p.dropLast
  let key ← p.getLast?
  let d ← d.makeParents [] parents
  let d := { d with context := parents }
  let d ←
    if row then do pure { d with root := ← alterTable (addRow key) parents d.root }
    else d.setValue key (.table [])
  return { d with context := p }

/-- Opens the tables of a dotted key, one below the other. -/
def openDotted (d : Draft) : Path → Option Draft
  | [] => some d
  | k :: rest => do
    let p := d.context ++ [k]
    let d ← (d.imply p).openTable p false
    openDotted d rest
termination_by p => p.length

/-- Notes a key of the current table. -/
def noteKey (d : Draft) (key : String) : Draft := { d with keys := (d.context ++ [key]) :: d.keys }

end Draft

/-- A part of a key at the front, and the rest. -/
def keyPart? (text : List Char) : Option (String × List Char) :=
  match text with
  | '"' :: rest => basicString? rest
  | '\'' :: rest => literalString? rest
  | _ =>
    match Text.span isBareChar text with
    | ([], _) => none
    | (cs, rest) => some (String.ofList cs, rest)

/-- A dotted key at the front, and the rest after blanks. -/
def key? : (fuel : Nat) → List Char → Option (Path × List Char)
  | 0, _ => none
  | fuel + 1, text => do
    let (part, rest) ← keyPart? (skipBlanks text)
    match skipBlanks rest with
    | '.' :: rest =>
      let (parts, rest) ← key? fuel rest
      return (part :: parts, rest)
    | rest => return ([part], rest)

/-- The text after a comment, which goes to the end of the line. -/
def skipComment (text : List Char) : List Char := text.dropWhile fun c => !isLineEnd c

/-- The text after blanks, line ends and comments. -/
def skipLines : (fuel : Nat) → List Char → List Char
  | 0, text => text
  | fuel + 1, text =>
    match text with
    | '#' :: rest => skipLines fuel (skipComment rest)
    | c :: rest => if isBlank c || isLineEnd c then skipLines fuel rest else text
    | [] => []

/-- Puts a value into a table below the tables of a dotted key. -/
def putDotted (key : String) (v : Value) : (parents : Path) → Table → Option Table
  | [], t => some (putEntry key v t)
  | k :: rest, t =>
    match t.lookup k with
    | none => do return t ++ [(k, .table (← putDotted key v rest []))]
    | some (.table inner) => do return putEntry k (.table (← putDotted key v rest inner)) t
    | some _ => none

mutual

/-- The value at the front, for a key of the current table. An inline table inside an array is a
row of it. -/
def value? : (fuel : Nat) → (key : String) → (inArray : Bool) → Draft → List Char →
    Option (Value × Draft × List Char)
  | 0, _, _, _, _ => none
  | fuel + 1, key, inArray, d, text =>
    match skipBlanks text with
    | '[' :: rest => do
      let (vs, d, rest) ← items? fuel key (d.noteArray key true) rest
      return (.array vs, d, rest)
    | '{' :: rest => do
      let context := d.context
      let p := context ++ [key]
      let d ← (d.imply p).openTable p inArray
      match skipBlanks rest with
      | '}' :: rest => return (.table [], { d with context }, rest)
      | rest =>
        let (t, d, rest) ← pairs? fuel d [] rest
        return (.table t, { d with context }, rest)
    | '"' :: '"' :: '"' :: rest => (basicBlock? rest).map fun (s, rest) => (.text s, d, rest)
    | '"' :: rest => (basicString? rest).map fun (s, rest) => (.text s, d, rest)
    | '\'' :: '\'' :: '\'' :: rest =>
      (literalBlock? rest).map fun (s, rest) => (.text s, d, rest)
    | '\'' :: rest => (literalString? rest).map fun (s, rest) => (.text s, d, rest)
    | 't' :: 'r' :: 'u' :: 'e' :: rest => some (.flag true, d, rest)
    | 'f' :: 'a' :: 'l' :: 's' :: 'e' :: rest => some (.flag false, d, rest)
    | 'i' :: 'n' :: 'f' :: rest | 'n' :: 'a' :: 'n' :: rest => some (.float, d, rest)
    | rest => (number? rest).map fun (v, rest) => (v, d, rest)

/-- The items of an array and its end. -/
def items? : (fuel : Nat) → (key : String) → Draft → List Char →
    Option (List Value × Draft × List Char)
  | 0, _, _, _ => none
  | fuel + 1, key, d, text =>
    match skipLines text.length text with
    | ']' :: rest => some ([], d, rest)
    | text => do
      let (v, d, rest) ← value? fuel key true d text
      match skipLines rest.length rest with
      | ',' :: rest =>
        let (vs, d, rest) ← items? fuel key d rest
        return (v :: vs, d, rest)
      | ']' :: rest => return ([v], d, rest)
      | _ => none

/-- The pairs of an inline table and its end, all on one line. -/
def pairs? : (fuel : Nat) → Draft → Table → List Char → Option (Table × Draft × List Char)
  | 0, _, _, _ => none
  | fuel + 1, d, t, text => do
    let (t, d, rest) ← pair? fuel d t text
    match skipBlanks rest with
    | ',' :: rest => pairs? fuel d t rest
    | '}' :: rest => return (t, d, rest)
    | _ => none

/-- A key with its value. The value is added to the current table, and to the given one. -/
def pair? : (fuel : Nat) → Draft → Table → List Char → Option (Table × Draft × List Char)
  | 0, _, _, _ => none
  | fuel + 1, d, t, text => do
    let (path, rest) ← key? text.length text
    let key ← path.getLast?
    match rest with
    | '=' :: rest =>
      let context := d.context
      let d := (← d.openDotted path.dropLast).noteKey key
      let (v, d, rest) ← value? fuel key false d rest
      let isArray := match v with | .array _ => true | _ => false
      let d := (← d.setValue key v).noteArray key isArray
      let t ← putDotted key v path.dropLast t
      return (t, { d with context }, rest)
    | _ => none

end

/-- The text after the end of a line, which may have a comment. -/
def lineEnd? (text : List Char) : Option (List Char) :=
  match skipBlanks text with
  | [] => some []
  | '#' :: rest => some (skipComment rest)
  | c :: rest => if isLineEnd c then some rest else none

/-- The header of a table, after its opening brackets. -/
def header? (d : Draft) (row : Bool) (text : List Char) : Option (Draft × List Char) := do
  let (path, rest) ← key? text.length text
  let rest ← Time.after? ']' rest
  let rest ← if row then Time.after? ']' rest else some rest
  let d ← d.openTable path row
  return ({ (d.noteArray "" false) with keys := path :: d.keys }, rest)

/-- All lines of a document. -/
def lines? : (fuel : Nat) → Draft → List Char → Option Draft
  | 0, _, _ => none
  | fuel + 1, d, text =>
    match skipLines text.length text with
    | [] => some d
    | '[' :: '[' :: rest => do
      let (d, rest) ← header? d true rest
      lines? fuel d (← lineEnd? rest)
    | '[' :: rest => do
      let (d, rest) ← header? d false rest
      lines? fuel d (← lineEnd? rest)
    | text => do
      let (_, d, rest) ← pair? text.length d [] text
      lines? fuel d (← lineEnd? rest)

/-- Only characters that a document may have: no controls besides tabs and line ends, and every
carriage return before a line feed. -/
def isClean : List Char → Bool
  | [] => true
  | '\r' :: '\n' :: rest => isClean rest
  | c :: rest => (c == '\t' || c == '\n' || (c.toNat ≥ 0x20 && c.toNat != 0x7f)) && isClean rest

/-- The bytes without a byte order mark. -/
def dropMark : List UInt8 → List UInt8
  | 0xff :: 0xfe :: rest | 0xfe :: 0xff :: rest | 0xef :: 0xbb :: 0xbf :: rest => rest
  | bytes => bytes

/-- A document: its outermost table, and its keys in the order of the text. -/
structure Document where
  root : Table
  keys : List Path

/-- The document of a file. -/
def Document.parse? (bytes : ByteArray) : Option Document := do
  let s ← Text.toText? ⟨(dropMark bytes.toList).toArray⟩
  let text := s.toList
  if isClean text then
    let d ← lines? (text.length + 1) {} text
    return { root := d.root, keys := d.keys.reverse }
  else none

end Toml
end ApiDiagrams
