import ApiDiagrams.Text.Quoted
import ApiDiagrams.World

/-!
# Renderers

A renderer lays out a graph in an output format.

* `Renderer`: its name, its version and its work;
* `Renderer.scripted`: a renderer with given answers, which records what it is asked;
* `Renderer.chain`: the first renderer that can do the work.
-/

namespace ApiDiagrams
namespace Render

/-- Something that lays out graphs. -/
structure Renderer where
  /-- The name, for logs and cache keys. -/
  name : String
  /-- The version of the layout tool. -/
  version : Effect Version
  /-- The source laid out in an output format. -/
  render : (source : ByteArray) → (format : String) → Effect (Except Fault ByteArray)

instance : Inhabited Renderer := ⟨"", pure .unknown, fun _ _ => pure (.error default)⟩

/-- The answers of a scripted renderer. -/
structure Script where
  name : String := "fake"
  version : Version := .unknown
  outputs : List (String × ByteArray) := []
  failure : Option Fault := none
  deriving Inhabited

namespace Script

/-- A script for a layout tool that is not installed. -/
def unavailable : Script where
  name := "missing"
  failure := some (.coded .toolUnavailable "dot not found")

/-- The answer to a request for a format. -/
def answer (s : Script) (format : String) : Except Fault ByteArray :=
  match s.outputs.lookup format, s.failure with
  | some output, _ => .ok output
  | none, some f => .error f
  | none, none =>
    .error (.coded .unsupportedFormat ("fake cannot produce " ++ Text.quote format))

end Script

namespace Renderer

/-- A renderer with given answers, known by its number in the record of requests. -/
def scripted (number : Nat) (s : Script) : Renderer where
  name := s.name
  version := pure s.version
  render source format := do
    modify fun w => { w with requests := w.requests ++ [⟨number, format, source⟩] }
    return s.answer format

/-- The failure means that another renderer may still do the work. -/
def isSkippable (f : Fault) : Bool := f.is .toolUnavailable || f.is .unsupportedFormat

/-- Tries renderers in order; `last` is the failure of the renderer before, if any. -/
def renderChain (source : ByteArray) (format : String) :
    (last : Option Fault) → List Renderer → Effect (Except Fault ByteArray)
  | none, [] => return .error (.coded .toolUnavailable "no renderer configured")
  | some f, [] => return .error f
  | _, r :: rest => do
    match ← r.render source format with
    | .ok output => return .ok output
    | .error f =>
      if isSkippable f then
        Effect.log ⟨.debug, "renderer skipped",
          [("renderer", .text r.name), ("format", .text format), ("err", .text f.text)]⟩
        renderChain source format (some f) rest
      else return .error f

/-- The first known version among renderers. -/
def versionChain : List Renderer → Effect Version
  | [] => return .unknown
  | r :: rest => do
    let v ← r.version
    if v.isUnknown then versionChain rest else return v

/-- The first renderer that is available and knows the format does the work. -/
def chain (members : List Renderer) : Renderer where
  name := String.intercalate "|" (members.map (·.name))
  version := versionChain members
  render source format := renderChain source format none members

end Renderer
end Render
end ApiDiagrams
