import ApiDiagrams.Cache.Key
import ApiDiagrams.Cache.Store
import ApiDiagrams.Render.Renderer

/-!
# Rendering with a store

* `Renderer.cached`: a renderer whose outputs are kept. A store that fails is logged and never
  fails a rendering.
-/

namespace ApiDiagrams
namespace Render

/-- How outputs are kept. -/
structure Caching where
  store : Cache.Store
  digest : Cache.Digest
  keyer : Cache.Keyer
  /-- How long outputs are kept, in nanoseconds; forever when it is not positive. -/
  ttl : Int

namespace Renderer

/-- The key of an output. -/
def cacheKey (r : Renderer) (c : Caching) (source : ByteArray) (format : String) :
    Effect String := do
  let version := (← r.version).text
  return c.keyer { sourceHash := c.digest source, renderer := r.name, version, format }

/-- The record about a store that failed. -/
def storeFailure (action : String) (f : Fault) : Log.Record :=
  ⟨.warn, "render cache " ++ action ++ " failed", [("err", .text f.text)]⟩

/-- Renders and keeps the output. -/
def renderAndKeep (r : Renderer) (c : Caching) (key : String) (source : ByteArray)
    (format : String) : Effect (Except Fault ByteArray) := do
  match ← r.render source format with
  | .error f => return .error f
  | .ok output =>
    match ← c.store.set key output c.ttl with
    | .error f => Effect.log (storeFailure "write" f)
    | .ok () => Effect.report (.cacheSet format output.size)
    return .ok output

/-- A renderer whose outputs are kept in a store. -/
def cached (r : Renderer) (c : Caching) : Renderer where
  name := r.name
  version := r.version
  render source format := do
    let key ← r.cacheKey c source format
    let found ← c.store.get key
    match found with
    | .ok (some output) =>
      Effect.report (.cacheHit format)
      return .ok output
    | .ok none => Effect.report (.cacheMiss format)
    | .error f =>
      Effect.log (storeFailure "read" f)
      Effect.report (.cacheMiss format)
    r.renderAndKeep c key source format

end Renderer
end Render
end ApiDiagrams
