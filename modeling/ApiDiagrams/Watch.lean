import ApiDiagrams.Fault
import ApiDiagrams.Log

/-!
# Events to watch

Building, rendering, the render cache and the preview server report what they do. Nobody has to
listen; a listener that writes them to the log shows each as a debug message.
-/

namespace ApiDiagrams
namespace Watch

/-- Something that happened. -/
inductive Event
  | buildStart (kind : String) (targets : Int)
  | buildDone (kind uid : String) (nodes edges : Int)
  | buildFailed (kind : String) (fault : Fault)
  | renderStart (renderer format : String)
  | renderDone (renderer format : String) (size : Int)
  | renderFailed (renderer format : String) (fault : Fault)
  | cacheHit (format : String)
  | cacheMiss (format : String)
  | cacheSet (format : String) (size : Int)
  | request (method path : String)
  | response (method path : String) (status : Int)
  deriving Repr, DecidableEq

/-- The event as a debug message. -/
def Event.record : Event → Log.Record
  | .buildStart kind targets =>
    ⟨.debug, "build start", [("kind", .text kind), ("targets", .number targets)]⟩
  | .buildDone kind uid nodes edges =>
    ⟨.debug, "build done", [("kind", .text kind), ("graph", .text uid), ("nodes", .number nodes),
      ("edges", .number edges)]⟩
  | .buildFailed kind fault =>
    ⟨.debug, "build failed", [("kind", .text kind), ("err", .text fault.text)]⟩
  | .renderStart renderer format =>
    ⟨.debug, "render start", [("renderer", .text renderer), ("format", .text format)]⟩
  | .renderDone renderer format size =>
    ⟨.debug, "render done", [("renderer", .text renderer), ("format", .text format),
      ("bytes", .number size)]⟩
  | .renderFailed renderer format fault =>
    ⟨.debug, "render failed", [("renderer", .text renderer), ("format", .text format),
      ("err", .text fault.text)]⟩
  | .cacheHit format => ⟨.debug, "cache hit", [("format", .text format)]⟩
  | .cacheMiss format => ⟨.debug, "cache miss", [("format", .text format)]⟩
  | .cacheSet format size =>
    ⟨.debug, "cache set", [("format", .text format), ("bytes", .number size)]⟩
  | .request method path =>
    ⟨.debug, "request", [("method", .text method), ("path", .text path)]⟩
  | .response method path status =>
    ⟨.debug, "response", [("method", .text method), ("path", .text path),
      ("status", .number status)]⟩

end Watch
end ApiDiagrams
