import ApiDiagrams.Data.Word
import ApiDiagrams.Files.Tree
import ApiDiagrams.Render.Version
import ApiDiagrams.Run.Stage
import ApiDiagrams.Text.Raw
import ApiDiagrams.Watch

/-!
# The world of a run

Whatever a run can see or change besides its arguments is one value: the files, the variables of
the environment, the clock, the log, and a record of what layout tools and servers were asked to do.

* `World`: that value; `Effect`: a computation that may change it;
* `Effect.log`, `Effect.report`, `Effect.notify`: writing to the log, to listeners and to the
  progress display;
* `Effect.print`, `Effect.display`: writing to the user's terminal.
-/

namespace ApiDiagrams

/-- One request to a scripted layout tool: the tool's number, a format and a source. -/
structure LayoutRequest where
  tool : Nat
  format : String
  source : ByteArray
  deriving DecidableEq, Inhabited

/-- One request to a server that keeps bytes under keys. -/
inductive ServerRequest
  /-- Asks whether the server answers. -/
  | ping
  | get (key : String)
  /-- Keeps bytes for a time in nanoseconds, forever when the time is zero. -/
  | set (key : String) (data : ByteArray) (ttl : Int)
  | delete (keys : List String)
  /-- Asks for the keys that fit a pattern. -/
  | scan (pattern : String)
  deriving DecidableEq, Inhabited

/-- All that a run can see or change. -/
structure World where
  files : FileTree := {}
  /-- The variables of the environment. -/
  env : List (String × Text.Raw) := []
  /-- The clock, in nanoseconds since the start of 1970. -/
  now : Int := 0
  /-- The work was called off. -/
  cancelled : Bool := false
  /-- Less grave records are not kept. -/
  level : Log.Level := .warn
  /-- Events are written to the log, whatever its level. -/
  listening : Bool := false
  log : List Log.Record := []
  requests : List LayoutRequest := []
  /-- What servers were asked to do, with their addresses. -/
  asked : List (String × ServerRequest) := []
  progress : List Run.Progress := []
  /-- What was printed. -/
  printed : String := ""
  /-- What the progress display wrote. -/
  displayed : String := ""
  /-- The versions that layout tools told when they were first asked, by command. -/
  detected : List (String × Render.Version) := []
  deriving Inhabited

/-- A computation that may change the world. -/
abbrev Effect := StateM World

namespace Effect

/-- Writes to the log. -/
def log (r : Log.Record) : Effect Unit :=
  modify fun w => if r.isShown w.level then { w with log := w.log ++ [r] } else w

/-- Writes records to the log. -/
def logAll (rs : List Log.Record) : Effect Unit := rs.forM log

/-- Tells whoever listens. -/
def report (e : Watch.Event) : Effect Unit :=
  modify fun w => if w.listening then { w with log := w.log ++ [e.record] } else w

/-- Tells the progress display. -/
def notify (p : Run.Progress) : Effect Unit :=
  modify fun w => { w with progress := w.progress ++ [p] }

/-- Prints a text. -/
def print (text : String) : Effect Unit :=
  modify fun w => { w with printed := w.printed ++ text }

/-- Writes a text of the progress display. -/
def display (text : String) : Effect Unit :=
  modify fun w => { w with displayed := w.displayed ++ text }

/-- How far the clock moves between two looks at it. -/
def tick : Int := 1000000

/-- Looks at the clock. -/
def clock : Effect Int := do
  let w ← get
  set { w with now := w.now + tick }
  return w.now

/-- The value of a variable of the environment, if it is set. -/
def environment (name : String) : Effect (Option String) := do
  return ((← get).env.lookup name).map Text.Raw.lossy

/-- An operation on the files that may fail and then changes nothing. -/
def onFiles (f : FileTree → Except FileFailure FileTree) : Effect (Except FileFailure Unit) := do
  match f (← get).files with
  | .ok files =>
    modify fun w => { w with files }
    return .ok ()
  | .error e => return .error e

/-- Makes a directory and those above it. Those that could be made stay when one could not. -/
def makeDirs (path : String) : Effect (Except Fault Unit) := do
  let w ← get
  let (files, result) := w.files.makeDirs path
  set { w with files }
  return result.mapError fun (front, e) => e.fault "mkdir" front

end Effect
end ApiDiagrams
