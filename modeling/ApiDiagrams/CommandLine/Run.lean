import ApiDiagrams.CommandLine.Generate
import ApiDiagrams.CommandLine.Verb

/-!
# Running commands

* `Session.renderFile`: lays out one source file;
* `Session.tellVersion`: tells the renderer and its version;
* `Session.clearCache`, `Session.tellCachePath`: the store of laid out diagrams;
* `run`: runs the command that arguments ask for.
-/

namespace ApiDiagrams
namespace CommandLine
namespace Session

open Display

/-- The file that a laid out source goes to when none is chosen. -/
def imagePath (input format : String) : String := Path.withoutExtension input ++ "." ++ format

/-- How a write ends that the operating system breaks off for reasons of its own. -/
structure Break where
  fault : Fault
  /-- How many bytes are there then, if the file could be opened at all. -/
  written : Option Nat := none

/-- Writes an image, as far as the operating system lets it. -/
def writeImage (broken : Option Break) (output : String) (image : ByteArray) :
    Effect (Except Fault Unit) := do
  let write (content : ByteArray) : Effect (Except Fault Unit) :=
    return (← Effect.onFiles (·.write output content)).mapError (·.fault "open" output)
  match broken with
  | none => write image
  | some ⟨f, none⟩ => return .error f
  | some ⟨f, some n⟩ => return (← write (image.extract 0 n)).bind fun () => .error f

/-- Lays out a source and writes the image. -/
def renderSource (s : Session) (broken : Option Break) (r : Render.Renderer)
    (input output format : String) (source : ByteArray) : Effect (Except Fault Unit) := do
  let startedAt := (← get).now
  match ← r.render source format with
  | .error f => return .error f
  | .ok image =>
    logDone startedAt ("Rendered " ++ input)
    match ← writeImage broken output image with
    | .error f => return .error (.wrapped .invalidPath ("write " ++ output) f)
    | .ok () =>
      if s.speaks then
        Effect.print (Line.success ("Rendered " ++ input ++ " with " ++ r.name) ++ Line.file output)
      return .ok ()

/-- The format that is asked for, or else that of the settings. -/
def imageFormat (s : Session) (vs : Values) : String :=
  if vs.text "format" ≠ "" then vs.text "format" else s.config.render.format.lossy

/-- Lays out one source file, as far as the operating system lets the image be written. -/
def renderFileOn (s : Session) (broken : Option Break) (input : String) (vs : Values) :
    Effect (Except Fault Unit) := do
  let format := s.imageFormat vs
  match Validation.checkFormat format with
  | .error f => return .error f
  | .ok () =>
    let output := if vs.text "output" ≠ "" then vs.text "output" else imagePath input format
    match (← get).files.read input with
    | .error e => return .error (.wrapped .notFound ("read " ++ input) (e.readFault input))
    | .ok source =>
      match ← s.renderer (vs.switch "no-cache") with
      | .error f => return .error f
      | .ok r => s.renderSource broken r input output format source

/-- Lays out one source file. -/
def renderFile (s : Session) (input : String) (vs : Values) : Effect (Except Fault Unit) :=
  s.renderFileOn none input vs

/-- Tells the renderer and its version. -/
def tellVersion (s : Session) : Effect Unit := do
  let r ← s.engine
  let v ← r.version
  Effect.print (Line.keyValue "renderer" r.name ++ Line.keyValue "version" v.text)
  if v.isUnknown then
    Effect.print (Line.warning "Graphviz dot was not found; install it or set render.command")
  else if !v.atLeast ⟨[2]⟩ then
    Effect.print (Line.warning "UML package trees need dot 2.0 or later")

/-- There is no directory for the user. -/
def noHome : Fault := .within "get cache dir" (.plain "$HOME is not defined")

/-- Clears the store that the settings choose. -/
def clearStore (s : Session) : Effect (Except Fault Unit) := do
  match ← s.store with
  | .error f => return .error f
  | .ok (store, dir) =>
    match ← store.clear with
    | (_, .error f) => return .error f
    | (n, .ok ()) =>
      Effect.print (Line.success ("Cleared " ++ toString n ++ " cached entries"))
      match dir with
      | some dir => Effect.print (Line.detail ("Directory: " ++ dir))
      | none => pure ()
      return .ok ()

/-- Clears the store of laid out diagrams. A directory that does not exist is not made. -/
def clearCache (s : Session) : Effect (Except Fault Unit) := do
  if s.config.cache.backend ≠ "file" then s.clearStore
  else
    match ← s.config.cacheDir with
    | none => return .error noHome
    | some dir =>
      match (← get).files.stat dir with
      | .error .missing =>
        Effect.print (Line.info "Cache is empty")
        return .ok ()
      | _ => s.clearStore

/-- Tells the directory of laid out diagrams. -/
def tellCachePath (s : Session) : Effect (Except Fault Unit) := do
  match ← s.config.cacheDir with
  | none => return .error noHome
  | some dir =>
    Effect.print (dir ++ "\n")
    return .ok ()

/-- Runs a command with its arguments. -/
def perform (s : Session) (v : Verb) (args : List String) (vs : Values) :
    Effect (Except Fault Unit) := do
  let first := args.headD ""
  match v with
  | .generate | .serve =>
    return (← s.generate first (GenerateOptions.ofValues vs)).map fun _ => ()
  | .render => s.renderFile first vs
  | .dotVersion =>
    s.tellVersion
    return .ok ()
  | .cacheClear => s.clearCache
  | .cachePath => s.tellCachePath
  | .root | .cache | .completion | .help => return .ok ()

end Session

/-- What is told about the program itself. -/
def versionText : String := Verb.program ++ " version dev\ncommit: none\nbuilt: unknown\n"

/-- Runs the command that arguments ask for. -/
def run (replacement : Option Render.Renderer) (args : List String) (machine : Machine := {}) :
    Effect (Except Fault Unit) := do
  modify fun w => { w with level := Log.Level.ofVerbosity 0 false }
  match Verb.find args with
  | .error f => return .error f
  | .ok (v, rest) =>
    match parse (v.flags ++ v.infoFlags) rest with
    | .error f => return .error f
    | .ok p =>
      if p.values.switch "help" then return .ok ()
      else if p.values.switch "version" then
        Effect.print versionText
        return .ok ()
      else if !v.isRunnable then return .ok ()
      else
        match v.checkArguments p.arguments with
        | .error f => return .error f
        | .ok () =>
          match ← (Session.ofValues replacement p.values machine).setUp with
          | .error f => return .error f
          | .ok s => s.perform v p.arguments p.values

end CommandLine
end ApiDiagrams
