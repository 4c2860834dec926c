import ApiDiagrams.Diagram.Builder
import ApiDiagrams.Toml.Read
import ApiDiagrams.Validation

/-!
# Configuration

* `Config`: the settings, with `Config.default`;
* `Config.decode`: the settings of a configuration file, over the defaults;
* `Config.override`: the settings after those of the environment;
* `Config.check`: the settings make sense.
-/

namespace ApiDiagrams

/-- One diagram that a configuration asks for. -/
structure GraphSpec where
  kind : String := ""
  targets : List String := []
  current : String := ""
  dir : String := ""
  style : String := ""
  addCallers : Bool := false
  addCallees : Bool := false
  caption : String := ""
  deriving DecidableEq, Repr, Inhabited

/-- How diagrams are laid out. What is no format or engine may hold stray bytes. -/
structure RenderSettings where
  /-- The layout tool. -/
  command : String := "dot"
  format : Text.Raw := "png"
  engine : Text.Raw := "auto"
  deriving DecidableEq, Repr, Inhabited

/-- Where laid out diagrams are kept. -/
structure CacheSettings where
  backend : Text.Raw := "file"
  dir : String := ""
  redisAddr : String := ""
  /-- How long entries live, in nanoseconds. -/
  ttl : Int := 7 * 24 * 3600 * 1000000000
  /-- What the keys of a project start with. -/
  scope : String := ""
  deriving DecidableEq, Repr, Inhabited

/-- Where generated files go. -/
structure OutputSettings where
  dir : String := "graphs"
  center : Bool := true
  deriving DecidableEq, Repr, Inhabited

/-- All settings. -/
structure Config where
  render : RenderSettings := {}
  cache : CacheSettings := {}
  output : OutputSettings := {}
  graphs : List GraphSpec := []
  /-- The file that the settings were read from, empty when there was none. -/
  path : String := ""
  deriving DecidableEq, Repr, Inhabited

namespace Config

open Data (Shape Datum)

/-- The settings when nothing is said. -/
def default : Config := {}

/-- What a configuration file holds. -/
def shape : Shape :=
  .record [
    ("render", .record [("command", .text), ("format", .text), ("engine", .text)]),
    ("cache", .record [("backend", .text), ("dir", .text), ("redis_addr", .text), ("ttl", .span),
      ("namespace", .text)]),
    ("output", .record [("dir", .text), ("center", .flag)]),
    ("graph", .list (.record [("kind", .text), ("targets", .list .text), ("current", .text),
      ("dir", .text), ("style", .text), ("add_callers", .flag), ("add_callees", .flag),
      ("caption", .text)]))]

/-- The diagram that a datum asks for. -/
def graphOf (d : Datum) : GraphSpec where
  kind := (d.get "kind").textOr ""
  targets := (d.get "targets").texts
  current := (d.get "current").textOr ""
  dir := (d.get "dir").textOr ""
  style := (d.get "style").textOr ""
  addCallers := (d.get "add_callers").flagOr false
  addCallees := (d.get "add_callees").flagOr false
  caption := (d.get "caption").textOr ""

/-- Other settings with those of a datum put over them. -/
def updated (base : Config) (d : Datum) : Config :=
  let render := d.get "render"
  let cache := d.get "cache"
  let output := d.get "output"
  { base with
    render :=
      { command := (render.get "command").textOr base.render.command
        format := (render.get "format").rawOr base.render.format
        engine := (render.get "engine").rawOr base.render.engine }
    cache :=
      { backend := (cache.get "backend").rawOr base.cache.backend
        dir := (cache.get "dir").textOr base.cache.dir
        redisAddr := (cache.get "redis_addr").textOr base.cache.redisAddr
        ttl := (cache.get "ttl").numberOr base.cache.ttl
        scope := (cache.get "namespace").textOr base.cache.scope }
    output :=
      { dir := (output.get "dir").textOr base.output.dir
        center := (output.get "center").flagOr base.output.center }
    graphs := (d.get "graph").items.map graphOf }

/-- The settings of a configuration file, over the defaults. A key that is no setting is refused. -/
def decode (bytes : ByteArray) : Except Fault Config :=
  let malformed : Fault := .wrapped .invalidInput "parse config" (.plain "malformed document")
  match Toml.Document.parse? bytes with
  | none => .error malformed
  | some doc =>
    match doc.read shape with
    | none => .error malformed
    | some d =>
      match doc.unknownKeys shape with
      | [] => .ok (default.updated d)
      | key :: _ =>
        .error (.coded .invalidInput ("unknown config key " ++ Text.quote (Toml.pathText key)))

/-- The variables of the environment that replace settings. -/
def overrides : List (String × (Text.Raw → Config → Config)) := [
  ("DOCGRAPH_DOT_COMMAND", fun v c => { c with render.command := v.lossy }),
  ("DOCGRAPH_FORMAT", fun v c => { c with render.format := v }),
  ("DOCGRAPH_ENGINE", fun v c => { c with render.engine := v }),
  ("DOCGRAPH_CACHE_BACKEND", fun v c => { c with cache.backend := v }),
  ("DOCGRAPH_CACHE_DIR", fun v c => { c with cache.dir := v.lossy }),
  ("DOCGRAPH_REDIS_ADDR", fun v c => { c with cache.redisAddr := v.lossy }),
  ("DOCGRAPH_OUTPUT_DIR", fun v c => { c with output.dir := v.lossy })]

/-- The settings after those of the environment. Empty variables do not count. -/
def override (c : Config) (environment : List (String × Text.Raw)) : Config :=
  overrides.foldl
    (fun c (name, set) =>
      match environment.lookup name with
      | some v => if v.units.isEmpty then c else set v c
      | none => c)
    c

/-- The layout engines. -/
def engines : List Text.Raw := ["auto", "exec", "embedded"]

/-- The places where laid out diagrams may be kept. -/
def backends : List Text.Raw := ["file", "redis", "none"]

/-- The styles of package trees, in any letter case; empty means the best one. -/
def isStyle (style : String) : Bool :=
  let s := Text.lowerText style
  s = "" || s = Diagram.umlStyle || s = Diagram.treeStyle

/-- A fault of the `n`-th diagram, under its own code. -/
def graphFault (n : Nat) (f : Fault) : Fault :=
  .wrapped (f.code?.getD ⟨""⟩) ("graph " ++ toString n) f

/-- Checks the `n`-th diagram. -/
def checkGraph (n : Nat) (g : GraphSpec) : Except Fault Unit := do
  let invalid (message : String) : Except Fault Unit :=
    .error (.coded .invalidInput ("graph " ++ toString n ++ ": " ++ message))
  match Diagram.Kind.parse g.kind with
  | .error f => .error (graphFault n f)
  | .ok _ =>
    if g.targets.isEmpty then invalid "no targets"
    else
      match Validation.checkDirection (Text.upperText g.dir) with
      | .error f => .error (graphFault n f)
      | .ok () =>
        if isStyle g.style then .ok () else invalid ("unknown style " ++ Text.quote g.style)

/-- Checks diagrams in order; `n` is the number of the first. -/
def checkGraphs : (n : Nat) → List GraphSpec → Except Fault Unit
  | _, [] => .ok ()
  | n, g :: rest => do
    checkGraph n g
    checkGraphs (n + 1) rest

/-- Checks the settings. -/
def check (c : Config) : Except Fault Unit := do
  let invalid (message : String) : Except Fault Unit := .error (.coded .invalidInput message)
  Validation.checkFormat c.render.format
  if !engines.contains c.render.engine then
    invalid ("render.engine: unknown engine " ++ c.render.engine.quote)
  else if !backends.contains c.cache.backend then
    invalid ("cache.backend: unknown backend " ++ c.cache.backend.quote)
  else if c.cache.backend = "redis" && c.cache.redisAddr = "" then
    invalid "cache.redis_addr is required for the redis backend"
  else if c.cache.ttl < 0 then invalid "cache.ttl cannot be negative"
  else checkGraphs 1 c.graphs

end Config
end ApiDiagrams
