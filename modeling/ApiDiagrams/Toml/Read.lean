import ApiDiagrams.Data.Shape
import ApiDiagrams.Text.LetterCase
import ApiDiagrams.Time.Span
import ApiDiagrams.Toml.Document

/-!
# Reading TOML against a shape

Names of fields match in any letter case. Keys that name no field are skipped; they can be asked
for.

* `Document.read`: the datum that a document holds, if it has the shape;
* `Document.unknownKeys`: the keys that name no field of the shape.
-/

namespace ApiDiagrams
namespace Toml

open Data (Shape Datum)

/-- The entries of a table whose keys name a field. -/
def entriesOf (name : String) (t : Table) : List Value :=
  (t.filter fun (key, _) => Text.equalFold name key).map (·.2)

/-- The items of an array, of either kind. -/
def Value.items? : Value → Option (List Value)
  | .array vs => some vs
  | .tables rows => some (rows.map .table)
  | _ => none

mutual

/-- The datum of a value. Nothing when the value does not have the shape. -/
def readValue : Shape → Value → Option Datum
  | .text, .text s => some (.text s)
  | .flag, .flag b => some (.flag b)
  | .span, .text s => (Time.Span.parse? s).map .number
  | .span, .integer n => some (.number n)
  | .list item, v => do
    let vs ← v.items?
    return .list (← vs.mapM (readValue item))
  | .record fields, .table t => do return .record (← readFields fields t)
  | _, _ => none

/-- The fields that a table gives. -/
def readFields : List (String × Shape) → Table → Option (List (String × Datum))
  | [], _ => some []
  | (name, shape) :: rest, t => do
    let found ← (entriesOf name t).mapM (readValue shape)
    let others ← readFields rest t
    return (name, found.getLastD .absent) :: others

end

mutual

/-- The keys of a value that name fields of the shape, below a path. -/
def knownIn : Shape → Path → Value → List Path
  | .list item, p, .array vs => vs.flatMap (knownIn item p)
  | .list item, p, .tables rows => rows.flatMap fun t => knownIn item p (.table t)
  | .record fields, p, .table t => knownFields fields p t
  | _, _, _ => []

/-- The keys of a table that name fields, below a path. -/
def knownFields : List (String × Shape) → Path → Table → List Path
  | [], _, _ => []
  | (name, shape) :: rest, p, t =>
    ((t.filter fun (key, _) => Text.equalFold name key).flatMap fun (key, v) =>
      (p ++ [key]) :: knownIn shape (p ++ [key]) v) ++ knownFields rest p t

end

namespace Document

/-- The datum that a document holds. Nothing when the document does not have the shape. -/
def read (d : Document) (shape : Shape) : Option Datum := readValue shape (.table d.root)

/-- The keys of a document that name no field of the shape, in the order of the text. -/
def unknownKeys (d : Document) (shape : Shape) : List Path :=
  let known := knownIn shape [] (.table d.root)
  d.keys.filter fun key => !known.contains key

end Document
end Toml
end ApiDiagrams
