import ApiDiagrams.Render.Renderer
import ApiDiagrams.Tool.Start
import ApiDiagrams.Validation
import ApiDiagrams.World

/-!
# Renderers that run a layout tool

Neither the layout tools of a machine nor a layout library is part of this library. They are given to
whoever uses them: `Tool.Programs` and `Library`.

* `layout`: runs the layout tool once;
* `Renderer.command`: lays out graphs with an installed tool;
* `Library`, `Renderer.embedded`: lays out graphs with a layout library.
-/

namespace ApiDiagrams
namespace Render

/-- The layout tool when none is chosen. -/
def defaultCommand : String := "dot"

/-- What the layout tool wrote to its two streams, and what went wrong. -/
structure Layout where
  output : ByteArray := .empty
  errors : ByteArray := .empty
  failure : Option Fault := none
  deriving Inhabited

/-- The messages of a layout tool without the blanks around them. -/
def messages (errors : ByteArray) : String :=
  Text.toTextLossy (Text.trimBytes errors)

/-- The fault of a program that does not run. -/
def refusalFault (command : String) : Tool.Refusal → Fault
  | .notFound => .wrapped .toolUnavailable
      (command ++ " not found; install Graphviz (brew install graphviz, apt install graphviz)")
      (.plain "executable file not found")
  | .notStarted => .wrapped .toolUnavailable ("cannot start " ++ command) (.plain "exec format error")

/-- The fault of a program that ran, if its status tells of one. -/
def statusFault (command : String) (args : List String) (r : Tool.Report) : Option Fault :=
  if r.status = 0 then none
  else some (.wrapped .toolFailed
    (command ++ " " ++ String.intercalate " " args ++ ": " ++ messages r.errors)
    (.plain ("exit status " ++ toString r.status)))

/-- Runs the layout tool with arguments and an input. -/
def layout (command : String) (args : List String) (input : ByteArray)
    (programs : Tool.Programs := Tool.start) : Effect Layout := do
  let w ← get
  match programs w.env w.files command args input with
  | .error r => return { failure := some (refusalFault command r) }
  | .ok (r, files) =>
    set { w with files }
    return { output := r.output, errors := r.errors, failure := statusFault command args r }

/-- Asks a layout tool for its version. -/
def detect (programs : Tool.Programs) (command : String) : Effect Version := do
  let l ← layout command ["-V"] .empty programs
  match l.failure with
  | some f =>
    Effect.log ⟨.debug, "dot version detection failed", [("err", .text f.text)]⟩
    return .unknown
  | none =>
    let told := Version.parse (Text.toTextLossy l.errors)
    let v := if told.isUnknown then Version.parse (Text.toTextLossy l.output) else told
    Effect.log ⟨.info, "Detected dot version", [("version", .text v.text)]⟩
    return v

namespace Renderer

/-- The version of a layout tool, asked for once. -/
def detectedVersion (programs : Tool.Programs) (command : String) : Effect Version := do
  match (← get).detected.lookup command with
  | some v => return v
  | none =>
    let v ← detect programs command
    modify fun w => { w with detected := (command, v) :: w.detected }
    return v

/-- Lays out a source with a layout tool. Its messages are logged when it succeeds. -/
def renderWith (programs : Tool.Programs) (command : String) (source : ByteArray)
    (format : String) : Effect (Except Fault ByteArray) := do
  match Validation.checkFormat format with
  | .error f => return .error f
  | .ok () =>
    Effect.report (.renderStart command format)
    let l ← layout command ["-T" ++ format] source programs
    match l.failure with
    | some f =>
      Effect.report (.renderFailed command format f)
      return .error f
    | none =>
      Effect.report (.renderDone command format l.output.size)
      let told := messages l.errors
      if told ≠ "" then Effect.log ⟨.warn, "Graphviz dot warning(s)", [("output", .text told)]⟩
      return .ok l.output

/-- A renderer that runs a layout tool. Nothing is known of the tool's version at first. -/
def command (name : String) (programs : Tool.Programs := Tool.start) : Effect Renderer := do
  let command := if name = "" then defaultCommand else name
  modify fun w => { w with detected := w.detected.filter fun (c, _) => c ≠ command }
  return { name := command, version := detectedVersion programs command,
           render := renderWith programs command }

end Renderer

/-- A layout library. It is loaded for each graph, reads the graph and draws it, and each of these
can fail. -/
structure Library where
  load : Except Fault Unit
  parse : (source : ByteArray) → Except Fault Unit
  /-- Draws a graph that was read. -/
  draw : (source : ByteArray) → (format : String) → Except Fault ByteArray

/-- A layout library that cannot be loaded. -/
def Library.absent : Library where
  load := .error (.plain "no layout library")
  parse _ := .ok ()
  draw _ _ := .error (.plain "no layout library")

instance : Inhabited Library := ⟨.absent⟩

/-- Lays out a graph with a layout library. -/
def Library.layout (l : Library) (source : ByteArray) (format : String) :
    Except Fault ByteArray := do
  l.load.mapError (.wrapped .toolUnavailable "init graphviz")
  (l.parse source).mapError (.wrapped .toolFailed "parse DOT")
  (l.draw source format).mapError (.wrapped .toolFailed ("render " ++ format))

namespace Renderer

/-- The program that makes a page of a picture. -/
def pageCommand : String := "rsvg-convert"

/-- Makes a page of a picture. Without the program for it, pages are no format of the library. -/
def toPage (programs : Tool.Programs) (picture : ByteArray) : Effect (Except Fault ByteArray) := do
  let l ← layout pageCommand ["-f", "pdf"] picture programs
  match l.failure with
  | none => return .ok l.output
  | some f =>
    if f.is .toolUnavailable then
      return .error (.wrapped .unsupportedFormat "pdf export requires librsvg" f)
    else return .error f

/-- The formats of a layout library, by the names under which they can be asked for. -/
def embeddedFormats : List (String × String) :=
  [("svg", "svg"), ("png", "png"), ("jpg", "jpg"), ("jpeg", "jpg")]

/-- Lays out a source with a layout library. Pages are made of pictures. -/
def renderEmbedded (l : Library) (programs : Tool.Programs) (source : ByteArray)
    (format : String) : Effect (Except Fault ByteArray) := do
  if format = "pdf" then
    match l.layout source "svg" with
    | .error f => return .error f
    | .ok picture => toPage programs picture
  else
    match embeddedFormats.lookup format with
    | none => return .error (.coded .unsupportedFormat
        ("embedded renderer cannot produce " ++ Text.quote format))
    | some kind => return l.layout source kind

/-- A renderer with a layout library. -/
def embedded (l : Library := .absent) (programs : Tool.Programs := Tool.start) : Renderer where
  name := "embedded"
  version := pure ⟨[2, 0]⟩
  render source format := do
    Effect.report (.renderStart "embedded" format)
    let result ← renderEmbedded l programs source format
    Effect.report (match result with
      | .ok output => .renderDone "embedded" format output.size
      | .error f => .renderFailed "embedded" format f)
    return result

end Renderer
end Render
end ApiDiagrams
