import ApiDiagrams.CommandLine.Session
import ApiDiagrams.Display.Tracker
import ApiDiagrams.Model.Format
import ApiDiagrams.Run.Execute

/-!
# Generating diagrams

* `GenerateOptions`: the flags that choose diagrams and where they go;
* `Model.load`: the index of a model file;
* `Session.directives`, `Session.runOptions`: what a run is asked to do;
* `Session.generate`: a run with its report to the user;
* `Session.rebuild`: loads the settings again and generates.
-/

namespace ApiDiagrams

/-- The index of a model file. The extension of its name tells the format. -/
def Model.load (path : String) : Effect (Except Fault Index) := do
  match (← get).files.read path with
  | .error e =>
    return .error (.wrapped .notFound ("read model " ++ path) (e.readFault path))
  | .ok bytes =>
    let format := String.ofList ((Path.extension path).toList.drop 1)
    return (Model.decode bytes format).bind Model.build

namespace CommandLine

/-- The flags that choose diagrams and where they go. -/
structure GenerateOptions where
  output : String := ""
  format : String := ""
  /-- Whether diagrams are centred, when that was said. -/
  center : Option Bool := none
  noCache : Bool := false
  noIndex : Bool := false
  /-- One diagram that replaces the configured ones when it has a kind. -/
  graph : GraphSpec := {}
  deriving DecidableEq, Repr, Inhabited

/-- The options that flags ask for. -/
def GenerateOptions.ofValues (vs : Values) : GenerateOptions where
  output := vs.text "output"
  format := vs.text "format"
  center := if vs.has "center" then some (vs.switch "center") else none
  noCache := vs.switch "no-cache"
  noIndex := vs.switch "no-index"
  graph :=
    { kind := vs.text "kind"
      targets := vs.list "target"
      current := vs.text "current"
      dir := vs.text "dir"
      style := vs.text "style"
      addCallers := vs.switch "callers"
      addCallees := vs.switch "callees"
      caption := vs.text "caption" }

namespace Session

/-- The directive that the flags ask for, or else those of the settings. -/
def directives (c : Config) (o : GenerateOptions) : Except Fault (List Run.Directive) := do
  if o.graph.kind ≠ "" then return [← Run.Directive.ofFlags o.graph]
  else
    let ds ← c.graphs.mapM Run.Directive.ofSpec
    if ds.isEmpty then
      .error (.coded .invalidInput
        "no graphs requested: pass --kind and --target or add [[graph]] entries to the config")
    else return ds

/-- The options of a run: the flags where they were given, else the settings. -/
def runOptions (c : Config) (o : GenerateOptions) : Run.Options where
  outDir := if o.output ≠ "" then o.output else c.output.dir
  format := if o.format ≠ "" then o.format else c.render.format.lossy
  center := o.center.getD c.output.center
  noIndex := o.noIndex

/-- What the user is told about one diagram. -/
def outputText (dir : String) (o : Run.Output) : String :=
  Display.Line.info (Display.Block.even o.title) ++
    Display.Line.stats o.nodes o.edges o.rendered ++
    (if o.rendered then Display.Line.file (Path.join [dir, o.image]) else "") ++
    Display.Line.file (Path.join [dir, o.fragment])

/-- What the user is told about a run. -/
def resultText (dir : String) (r : Run.Result) : String :=
  let failed := r.outputs.length - r.rendered
  String.join (r.outputs.map (outputText dir)) ++
    (if r.skipped > 0 then
      Display.Line.warning
        ("Skipped " ++ toString r.skipped ++ " graph(s) without matching targets") else "") ++
    (if failed > 0 then
      Display.Line.warning (toString failed ++ " image(s) could not be rendered") else "") ++
    Display.Line.success ("Generated " ++ toString r.outputs.length ++ " graph(s) in " ++
      Display.Block.even dir)

/-- A run whose progress is shown. -/
def tracked (s : Session) (r : Render.Renderer) (ix : Index) (ds : List Run.Directive)
    (opts : Run.Options) : Effect (Except Fault Run.Result) := do
  modify fun w => { w with progress := [] }
  let result ← ({ renderer := r } : Run.Runner).execute ix ds opts
  let w ← get
  let start : Display.Tracker := { mode := Display.Mode.select s.verbosity false }
  let (t, lines) := start.receiveAll w.now w.progress
  Effect.display (lines ++ t.summary (s.verbosity ≥ 2))
  return result

/-- Generates the diagrams for a model file. -/
def generate (s : Session) (model : String) (o : GenerateOptions) :
    Effect (Except Fault Run.Result) := do
  match directives s.config o with
  | .error f => return .error f
  | .ok ds =>
    let startedAt := (← get).now
    match ← Model.load model with
    | .error f => return .error f
    | .ok ix =>
      logDone startedAt "Loaded model"
      match ← s.renderer o.noCache with
      | .error f => return .error f
      | .ok r =>
        let opts := runOptions s.config o
        match ← s.tracked r ix ds opts with
        | .error f => return .error f
        | .ok result =>
          if s.speaks then Effect.print (resultText opts.outDir result)
          return .ok result

/-- Loads the settings again and generates the diagrams for a model file. When the settings cannot
be loaded, the session stays as it was. -/
def rebuild (s : Session) (model : String) (o : GenerateOptions) :
    Effect (Session × Except Fault Unit) := do
  match ← Config.load s.configPath with
  | .error f => return (s, .error f)
  | .ok config =>
    let s := { s with config }
    return (s, (← s.generate model o).map fun _ => ())

end Session
end CommandLine
end ApiDiagrams
