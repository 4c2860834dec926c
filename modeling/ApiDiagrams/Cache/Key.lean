import ApiDiagrams.Cache.Sha256
import ApiDiagrams.Json.Write

/-!
# Keys of laid out diagrams

A laid out diagram is known by its source, the layout tool and the format. The hash is a parameter:
`Sha256.hex` is the one in use.

* `RenderKey`: what a key stands for;
* `Keyer`: how keys are written; `Keyer.plain`, `Keyer.inScope`.
-/

namespace ApiDiagrams
namespace Cache

/-- A hash of bytes as text. -/
abbrev Digest := ByteArray → String

/-- What a laid out diagram is known by. -/
structure RenderKey where
  /-- The hash of the source. -/
  sourceHash : String
  renderer : String
  version : String
  format : String
  deriving DecidableEq, Repr, Inhabited

/-- A way to write keys. -/
abbrev Keyer := RenderKey → String

namespace Keyer

/-- What is hashed for a key, part by part. All parts are valid UTF-8, as the names of formats are once
they were checked: written as JSON, other bytes would not be told apart. -/
def parts (k : RenderKey) : List String := [k.sourceHash, k.renderer, k.version, k.format]

/-- The key without a scope. -/
def plain (digest : Digest) : Keyer := fun k =>
  "render:" ++ digest (String.ofList (Json.array (parts k))).toUTF8

/-- The keys of a scope start with its name. -/
def inScope (scope : String) (inner : Keyer) : Keyer := fun k => scope ++ inner k

end Keyer
end Cache
end ApiDiagrams
