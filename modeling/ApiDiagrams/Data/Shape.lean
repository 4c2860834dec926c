import ApiDiagrams.Text.Raw

/-!
# Shapes of documents

A document in any of the file formats is read against a shape, which says what is expected where.

* `Shape`: what may stand at a place;
* `Datum`: what was found there, the same for all formats.
-/

namespace ApiDiagrams
namespace Data

/-- What is expected at a place of a document. -/
inductive Shape
  | text
  | flag
  /-- A length of time: a text such as `36h`, or a number of nanoseconds. -/
  | span
  | list (item : Shape)
  | record (fields : List (String × Shape))
  deriving Inhabited

/-- What was found at a place of a document. -/
inductive Datum
  /-- Nothing was said. -/
  | absent
  | text (s : Text.Raw)
  | flag (b : Bool)
  | number (n : Int)
  | list (items : List Datum)
  | record (fields : List (String × Datum))
  deriving Inhabited, Repr

namespace Datum

/-- The datum under a name of a record. -/
def get (d : Datum) (name : String) : Datum :=
  match d with
  | .record fields => (fields.lookup name).getD .absent
  | _ => .absent

/-- The text with its stray bytes, or a default when nothing was said. -/
def rawOr (default_ : Text.Raw) : Datum → Text.Raw
  | .text s => s
  | _ => default_

/-- The text with its stray bytes, empty when nothing was said. -/
def raw (d : Datum) : Text.Raw := d.rawOr ""

/-- The text, or a default when nothing was said. -/
def textOr (default_ : String) : Datum → String
  | .text s => s.lossy
  | _ => default_

/-- The truth value, or a default when nothing was said. -/
def flagOr (default_ : Bool) : Datum → Bool
  | .flag b => b
  | _ => default_

/-- The number, or a default when nothing was said. -/
def numberOr (default_ : Int) : Datum → Int
  | .number n => n
  | _ => default_

/-- The items of a list, none when nothing was said. -/
def items : Datum → List Datum
  | .list ds => ds
  | _ => []

/-- The texts of a list. -/
def texts (d : Datum) : List String := d.items.map (textOr "")

end Datum
end Data
end ApiDiagrams
