import ApiDiagrams.Cache.FileStore
import ApiDiagrams.Cache.Sha256
import ApiDiagrams.Cache.Shared
import ApiDiagrams.CommandLine.Flag
import ApiDiagrams.Config.Load
import ApiDiagrams.Display.Line
import ApiDiagrams.Render.Cached
import ApiDiagrams.Render.Command

/-!
# Sessions

A session is what all commands share: the machine, how much is shown, and the settings.

* `Machine`: what a session finds outside this library;
* `Session`, `Session.ofValues`: a session, and the one that flags ask for;
* `Session.setUp`: loads the settings;
* `Session.store`, `Session.renderer`: the store and the renderer that the settings choose.
-/

namespace ApiDiagrams
namespace CommandLine

/-- What a session finds outside this library: programs, a layout library and servers. -/
structure Machine where
  programs : Tool.Programs := Tool.start
  library : Render.Library := .absent
  servers : Cache.Servers := .none

instance : Inhabited Machine := ⟨{}⟩

/-- What all commands share. -/
structure Session where
  /-- A renderer that replaces the configured one. -/
  replacement : Option Render.Renderer := none
  config : Config := .default
  /-- How often more output was asked for minus how often less was. -/
  verbosity : Int := 0
  debug : Bool := false
  /-- The configuration file that was asked for, empty for none. -/
  configPath : String := ""
  machine : Machine := {}

namespace Session

/-- The session that flags ask for. -/
def ofValues (replacement : Option Render.Renderer) (vs : Values) (machine : Machine := {}) :
    Session where
  replacement
  machine
  verbosity := Word.wrap (vs.count "verbose" - vs.count "quiet")
  debug := vs.switch "debug"
  configPath := vs.text "config"

/-- Sets the log up and loads the settings. -/
def setUp (s : Session) : Effect (Except Fault Session) := do
  modify fun w => { w with
    level := Log.Level.ofVerbosity s.verbosity s.debug
    listening := w.listening || s.debug }
  match ← Config.load s.configPath with
  | .error f => return .error f
  | .ok config =>
    if config.path ≠ "" then
      Effect.log ⟨.debug, "Loaded config", [("path", .text config.path)]⟩
    return .ok { s with config }

/-- The texts for the user are wanted. -/
def speaks (s : Session) : Bool := s.verbosity ≥ 0

/-- A store, and the directory of its files if it has one. -/
abbrev Opened := Cache.Store × Option String

/-- The store that the settings choose. Without a home directory, and when a shared store cannot be
reached, nothing is kept. -/
def store (s : Session) : Effect (Except Fault Opened) := do
  let c := s.config
  if c.cache.backend = "redis" then
    match ← Cache.Shared.openAt s.machine.servers c.cache.redisAddr with
    | .error f =>
      Effect.log ⟨.warn, "Render cache disabled", [("err", .text f.text)]⟩
      return .ok (.null, none)
    | .ok shared => return .ok (shared.store, none)
  else if c.cache.backend = "none" then return .ok (.null, none)
  else
    match ← c.cacheDir with
    | none => return .ok (.null, none)
    | some dir =>
      return (← Cache.FileStore.openAt Sha256.hex dir).map fun s => (s.store, some s.dir)

/-- The renderer that the settings choose, without a store. -/
def engine (s : Session) : Effect Render.Renderer := do
  match s.replacement with
  | some r => return r
  | none =>
    let library := Render.Renderer.embedded s.machine.library s.machine.programs
    if s.config.render.engine = "embedded" then return library
    else
      let tool ← Render.Renderer.command s.config.render.command s.machine.programs
      if s.config.render.engine = "exec" then return tool
      else return .chain [tool, library]

/-- The keys of the settings. -/
def keyer (c : Config) : Cache.Keyer :=
  let plain := Cache.Keyer.plain Sha256.hex
  if c.cache.scope = "" then plain else plain.inScope c.cache.scope

/-- The renderer that the settings choose, with its store unless it is not wanted. -/
def renderer (s : Session) (noCache : Bool) : Effect (Except Fault Render.Renderer) := do
  let r ← s.engine
  if noCache || s.config.cache.backend = "none" then return .ok r
  else
    match ← s.store with
    | .error f => return .error f
    | .ok (store, _) =>
      return .ok (r.cached { store, digest := Sha256.hex, keyer := keyer s.config,
                             ttl := s.config.cache.ttl })

/-- Tells the log that work is done. The time that it took stands in brackets. -/
def logDone (startedAt : Int) (message : String) : Effect Unit := do
  let took := Time.Span.round 1000000 ((← get).now - startedAt)
  Effect.log ⟨.info, message ++ " (" ++ Time.Span.text took ++ ")", []⟩

end Session
end CommandLine
end ApiDiagrams
