import ApiDiagrams.Config
import ApiDiagrams.Config.Variables
import ApiDiagrams.World

/-!
# Finding and loading the configuration

* `Config.environmentNames`: the variables of the environment that matter;
* `Config.find`: the configuration file to use;
* `Config.load`: the settings of a run;
* `Config.cacheDir`: where laid out diagrams are kept.
-/

namespace ApiDiagrams
namespace Config

/-- The name of the directories for settings and for the cache. -/
def appName : String := "docgraph"

/-- The configuration file of the working directory. -/
def fileName : String := "docgraph.toml"

/-- The file of variables of the working directory. -/
def variablesFile : String := ".env"

/-- The variable of the environment that names a configuration file. -/
def pathVariable : String := "DOCGRAPH_CONFIG"

/-- The variables of the environment that name directories of the user. -/
def homeVariables : List String := ["HOME", "XDG_CONFIG_HOME", "XDG_CACHE_HOME"]

/-- The variables of the environment that matter. -/
def environmentNames : List String := pathVariable :: homeVariables ++ overrides.map (·.1)

/-- The value of a variable that is set and not empty. -/
def given (name : String) : Effect (Option String) := do
  return (← Effect.environment name).filter (· ≠ "")

/-- A directory of the user: below the place that a variable names, or else below the home
directory. Nothing when there is no home directory. -/
def userDir (variable_ fallback : String) : Effect (Option String) := do
  match ← given variable_ with
  | some place => return some (Path.join [place, appName])
  | none => return (← given "HOME").map fun home => Path.join [home, fallback, appName]

/-- A file that was asked for by name must exist. -/
def insist (path : String) : Effect (Except Fault String) := do
  match (← get).files.stat path with
  | .ok _ => return .ok path
  | .error e =>
    return .error (.wrapped .notFound ("config file " ++ path) (e.fault "stat" path))

/-- The configuration file of the user. -/
def userFile : Effect (Option String) := do
  return (← userDir "XDG_CONFIG_HOME" ".config").map fun dir => Path.join [dir, "config.toml"]

/-- The configuration file to use: the one asked for, that of the environment, that of the working
directory, or that of the user. Empty when there is none. -/
def find (explicit : String) : Effect (Except Fault String) := do
  if explicit ≠ "" then insist explicit
  else
    match ← given pathVariable with
    | some path => insist path
    | none =>
      let user ← userFile
      let files := (← get).files
      let isFile (path : String) : Bool :=
        match files.stat path with
        | .ok (.file _) => true
        | _ => false
      return .ok (((fileName :: user.toList).find? isFile).getD "")

/-- Takes over the variables of the file of variables. Variables that are set stay. -/
def loadVariables : Effect (Except Fault Unit) := do
  let w ← get
  let failed (cause : Fault) : Except Fault Unit :=
    .error (.wrapped .invalidInput ("load " ++ variablesFile) cause)
  match w.files.read variablesFile with
  | .error .missing => return .ok ()
  | .error e => return failed (e.readFault variablesFile)
  | .ok bytes =>
    match Variables.parse? bytes with
    | none => return failed (.plain "malformed line")
    | some vars =>
      set { w with env := w.env ++ Variables.settable vars }
      return .ok ()

/-- The settings of a configuration file. -/
def loadFile (path : String) : Effect (Except Fault Config) := do
  match (← get).files.read path with
  | .error e =>
    return .error (.wrapped .notFound ("read config " ++ path) (e.readFault path))
  | .ok bytes => return (decode bytes).map fun c => { c with path }

/-- The settings of a run: those of the configuration file, then those of the environment. Without
a file the defaults are used. -/
def load (explicit : String) : Effect (Except Fault Config) := do
  match ← loadVariables with
  | .error f => return .error f
  | .ok () =>
    match ← find explicit with
    | .error f => return .error f
    | .ok path =>
      let loaded ← if path = "" then pure (.ok default) else loadFile path
      match loaded with
      | .error f => return .error f
      | .ok c =>
        let c := c.override (← get).env
        return c.check.map fun () => c

/-- The directory of laid out diagrams. Nothing when there is no home directory. -/
def cacheDir (c : Config) : Effect (Option String) :=
  if c.cache.dir ≠ "" then return some c.cache.dir else userDir "XDG_CACHE_HOME" ".cache"

end Config
end ApiDiagrams
