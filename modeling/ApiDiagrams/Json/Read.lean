import ApiDiagrams.Data.Shape
import ApiDiagrams.Json.Value
import ApiDiagrams.Text.LetterCase

/-!
# Reading JSON against a shape

Names of fields match in any letter case, and none may be unknown. A field that comes several times
is filled several times: a later text replaces an earlier one, and a later list is filled over the
items of an earlier one.

* `Value.fits`: the value has the shape;
* `readAll`: the datum that values make up, one after the other;
* `Value.read`: the datum of a value that fits.
-/

namespace ApiDiagrams
namespace Json

open Data (Shape Datum)

/-- The field of a record that a key names, in any letter case. -/
def field? (fields : List (String × Shape)) (key : String) : Option (String × Shape) :=
  fields.find? fun (name, _) => Text.equalFold name key

mutual

/-- The value has the shape. A null fits everywhere. -/
def Value.fits : Value → Shape → Bool
  | .null, _ => true
  | .text _ _, .text => true
  | .flag _, .flag => true
  | .array items, .list item => allFit items item
  | .object members, .record fields => membersFit members fields
  | _, _ => false

/-- All values have the shape. -/
def allFit : List Value → Shape → Bool
  | [], _ => true
  | v :: rest, shape => v.fits shape && allFit rest shape

/-- All members are known fields, with values of their shapes. -/
def membersFit : List (String × Value) → List (String × Shape) → Bool
  | [], _ => true
  | (key, v) :: rest, fields =>
    (match field? fields key with
     | some (_, shape) => v.fits shape
     | none => false) && membersFit rest fields

end

/-- The last text among values. -/
def lastText (vs : List Value) : Datum :=
  vs.foldl (fun d v => match v with | .text s _ => .text s | _ => d) .absent

/-- The last truth value among values. -/
def lastFlag (vs : List Value) : Datum :=
  vs.foldl (fun d v => match v with | .flag b => .flag b | _ => d) .absent

/-- The arrays that fill a list: a null or an empty array starts over. -/
def layers (vs : List Value) : List (List Value) :=
  vs.foldl
    (fun done v =>
      match v with
      | .array (x :: xs) => done ++ [x :: xs]
      | .array [] | .null => []
      | _ => done)
    []

/-- The members of all objects among values. -/
def allMembers (vs : List Value) : List (String × Value) :=
  vs.flatMap fun v => match v with | .object members => members | _ => []

/-- The values that members give to a field. -/
def valuesOf (name : String) (members : List (String × Value)) : List Value :=
  (members.filter fun (key, _) => Text.equalFold name key).map (·.2)

mutual

/-- The datum that values make up when they fill a place one after the other. A list is as long as
the last array. -/
def readAll : Shape → List Value → Datum
  | .text, vs => lastText vs
  | .flag, vs => lastFlag vs
  | .span, _ => .absent
  | .list item, vs =>
    let arrays := layers vs
    let size := (arrays.getLast?.map List.length).getD 0
    .list ((List.range size).map fun i => readAll item (arrays.filterMap fun xs => xs[i]?))
  | .record fields, vs => .record (readFields fields (allMembers vs))

/-- The fields that members make up. -/
def readFields : List (String × Shape) → List (String × Value) → List (String × Datum)
  | [], _ => []
  | (name, shape) :: rest, members =>
    (name, readAll shape (valuesOf name members)) :: readFields rest members

end

/-- The datum of a value. Nothing when the value does not have the shape. -/
def Value.read (v : Value) (shape : Shape) : Option Datum :=
  if v.fits shape then some (readAll shape [v]) else none

end Json
end ApiDiagrams
