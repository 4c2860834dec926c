import ApiDiagrams.Json.Read
import ApiDiagrams.Model
import ApiDiagrams.Toml.Read
import ApiDiagrams.Yaml.Read

/-!
# Model files

* `Model.shape`: what a model file holds;
* `Model.Format`: the formats that it may be written in;
* `Model.decode`: the model that a file holds.
-/

namespace ApiDiagrams
namespace Model

open Data (Shape Datum)

/-- The fields of an entity. -/
def entityShape : Shape :=
  .record [("name", .text), ("kind", .text), ("package", .flag), ("root", .flag),
    ("bases", .list .text), ("imports", .list .text), ("value", .text)]

/-- The fields of a call. -/
def callShape : Shape := .record [("caller", .text), ("callee", .text)]

/-- The fields of a model. -/
def shape : Shape :=
  .record [("entities", .list entityShape), ("calls", .list callShape), ("profiled", .flag)]

/-- The entity that a datum describes. -/
def entityOf (d : Datum) : EntitySpec where
  name := (d.get "name").raw
  kind := (d.get "kind").raw
  package := (d.get "package").flagOr false
  root := (d.get "root").flagOr false
  bases := (d.get "bases").items.map Datum.raw
  imports := (d.get "imports").items.map Datum.raw
  value := (d.get "value").textOr ""

/-- The call that a datum describes. -/
def callOf (d : Datum) : CallSpec where
  caller := (d.get "caller").textOr ""
  callee := (d.get "callee").textOr ""

/-- The model that a datum describes. -/
def ofDatum (d : Datum) : Model where
  entities := (d.get "entities").items.map entityOf
  calls := (d.get "calls").items.map callOf
  profiled := (d.get "profiled").flagOr false

/-- A format of model files. -/
inductive Format
  | yaml
  | toml
  | json
  deriving DecidableEq, Repr, Inhabited

namespace Format

/-- The format that a file extension names, in any letter case. -/
def parse? (name : String) : Option Format :=
  match Text.lowerText name with
  | "yaml" | "yml" => some .yaml
  | "toml" => some .toml
  | "json" => some .json
  | _ => none

/-- The datum that a file in the format holds, if it has a shape. -/
def read (f : Format) (bytes : ByteArray) (shape : Shape) : Option Datum :=
  match f with
  | .yaml => (Yaml.Document.first? bytes).bind (·.read shape)
  | .toml => (Toml.Document.parse? bytes).bind (·.read shape)
  | .json => (Json.parseFirst? bytes).bind (·.read shape)

end Format

/-- The model that a file holds; `format` is the extension of its name. -/
def decode (bytes : ByteArray) (format : String) : Except Fault Model :=
  match Format.parse? format with
  | none =>
    .error (.coded .invalidFormat ("unsupported model format: " ++ Text.quote format))
  | some f =>
    match f.read bytes shape with
    | some d => .ok (ofDatum d)
    | none =>
      .error (.wrapped .invalidInput ("parse " ++ format ++ " model") (.plain "malformed document"))

end Model
end ApiDiagrams
