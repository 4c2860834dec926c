import ApiDiagrams.Diagram.Build
import ApiDiagrams.Pages
import ApiDiagrams.Run.Output
import ApiDiagrams.Run.Target

/-!
# Runs

A run goes through its stages: it resolves the targets of all directives, builds the diagrams,
renders and writes them, and writes the index page. Invalid directives fail the run before anything
is written; a directive whose targets stand for nothing is skipped; a diagram that cannot be
rendered is written without an image.

* `Runner`: what a run works with;
* `Runner.execute`: a run.
-/

namespace ApiDiagrams
namespace Run

/-- What a run works with. -/
structure Runner where
  renderer : Render.Renderer
  /-- How names become links; the pages of the index when nothing is given. -/
  linker : Option Dot.Linker := none
  rule : PatternRule := Glob.rule

/-- The outcome of a run. -/
structure Result where
  outputs : List Output
  skipped : Nat
  deriving DecidableEq, Repr, Inhabited

/-- The number of diagrams with an image. -/
def Result.rendered (r : Result) : Nat := r.outputs.countP (·.rendered)

/-- A directive whose targets are resolved. -/
structure Job where
  directive : Directive
  targets : List EntityId
  deriving DecidableEq, Repr, Inhabited

/-- Checks all directives. -/
def checkAll : List Directive → Except Fault Unit
  | [] => .ok ()
  | d :: rest => do
    d.check
    checkAll rest

namespace Runner

/-- Fills in the entity whose page shows the diagram. -/
def locateCurrent (ix : Index) (d : Directive) : Effect Directive := do
  if d.current = "" then return d
  else
    let current := ix.lookup d.current
    if current.isNone then
      Effect.log ⟨.warn, "Current entity is not documented", [("current", .text d.current)]⟩
    return { d with options.current := current }

/-- Resolves directives; those without targets are only counted. -/
def resolveAll (r : Runner) (ix : Index) :
    List Directive → Effect (Except Fault (List Job × Nat))
  | [] => return .ok ([], 0)
  | d :: rest => do
    Effect.notify (.step d.kind)
    match ← resolveTargets r.rule ix [] d.targets with
    | .error f => return .error f
    | .ok [] =>
      Effect.log ⟨.warn, "Skipping graph with no targets", [("kind", .text d.kind)]⟩
      return (← resolveAll r ix rest).map fun (jobs, skipped) => (jobs, skipped + 1)
    | .ok (t :: ts) =>
      let d ← locateCurrent ix d
      return (← resolveAll r ix rest).map fun (jobs, skipped) => (⟨d, t :: ts⟩ :: jobs, skipped)

/-- Builds diagrams one after the other, in one context. -/
def buildAll (b : Diagram.Builder) (linker : Dot.Linker) :
    Dot.Context → List Job → Effect (Except Fault (List (Directive × Dot.Graph)))
  | _, [] => return .ok []
  | c, job :: rest => do
    let kind := job.directive.kind
    Effect.notify (.step kind)
    Effect.report (.buildStart kind job.targets.length)
    match b.build kind job.targets job.directive.options c with
    | .error f =>
      Effect.report (.buildFailed kind f)
      return .error f
    | .ok built =>
      Effect.logAll built.log
      let g := { built.graph with caption := job.directive.caption }.link linker
      Effect.report (.buildDone kind g.uid g.nodes.length g.edges.length)
      Effect.log ⟨.debug, "Built graph", [("uid", .text g.uid), ("nodes", .number g.nodes.length),
        ("edges", .number g.edges.length)]⟩
      return (← buildAll b linker built.context rest).map ((job.directive, g) :: ·)

/-- Renders and writes diagrams. -/
def writeAll (r : Render.Renderer) (opts : Options) :
    List (Directive × Dot.Graph) → Effect (Except Fault (List Output))
  | [] => return .ok []
  | (d, g) :: rest => do
    Effect.notify (.step g.title)
    match ← writeGraph r opts d g with
    | .error f => return .error f
    | .ok out => return (← writeAll r opts rest).map (out :: ·)

/-- The last stage: the page that lists all diagrams, unless it is not wanted. -/
def finish (opts : Options) (outputs : List Output) : Effect (Except Fault Unit) := do
  if opts.noIndex then return .ok ()
  else
    Effect.notify (.start .index 1)
    Effect.notify (.step indexFile)
    match ← writeIndex opts.outDir outputs with
    | .error f => return .error f
    | .ok () =>
      Effect.notify (.finish .index)
      return .ok ()

/-- The stages of a run whose output directory exists. -/
def stages (r : Runner) (ix : Index) (directives : List Directive) (opts : Options) :
    Effect (Except Fault Result) := do
  let linker := r.linker.getD (Pages.urlFor ix "")
  Effect.notify (.start .resolve directives.length)
  match ← r.resolveAll ix directives with
  | .error f => return .error f
  | .ok (jobs, skipped) =>
    Effect.notify (.finish .resolve)
    let version ← r.renderer.version
    let b : Diagram.Builder := { index := ix, linker := some linker, version }
    Effect.notify (.start .build jobs.length)
    match ← buildAll b linker {} jobs with
    | .error f => return .error f
    | .ok graphs =>
      Effect.notify (.finish .build)
      Effect.notify (.start .render graphs.length)
      match ← writeAll r.renderer opts graphs with
      | .error f => return .error f
      | .ok outputs =>
        Effect.notify (.finish .render)
        match ← finish opts outputs with
        | .error f => return .error f
        | .ok () =>
          let result : Result := { outputs, skipped }
          Effect.log ⟨.info, "Generated graphs", [("graphs", .number outputs.length),
            ("rendered", .number result.rendered), ("skipped", .number skipped)]⟩
          return .ok result

/-- A run over an index. -/
def execute (r : Runner) (ix : Index) (directives : List Directive) (opts : Options) :
    Effect (Except Fault Result) := do
  let opts := opts.complete
  match Validation.checkFormat opts.format, checkAll directives with
  | .error f, _ => return .error f
  | _, .error f => return .error f
  | .ok (), .ok () =>
    match ← Effect.makeDirs opts.outDir with
    | .error f =>
      return .error (.wrapped .invalidPath ("create output directory " ++ opts.outDir) f)
    | .ok () => r.stages ix directives opts

end Runner
end Run
end ApiDiagrams
