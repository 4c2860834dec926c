import ApiDiagrams.CommandLine.Session
import ApiDiagrams.CommandLine.Verb

/-!
# What a command may look at

The files that matter to a command are known before it runs: those that its arguments and the
settings name.

* `argumentPaths`: the paths that arguments may name;
* `settingsPaths`: the files that the settings may come from;
* `settledPaths`: the paths that the settings of a command name.
-/

namespace ApiDiagrams
namespace CommandLine

/-- The paths that an argument may name: the argument itself, what stands after its first equals
sign, and what stands after the letter of a flag. -/
def argumentPath (arg : String) : List String :=
  let value := (arg.toList.dropWhile (· ≠ '=')).drop 1
  [arg, String.ofList value, String.ofList (arg.toList.drop 2)]

/-- The paths that arguments may name. -/
def argumentPaths (args : List String) : List String :=
  (args.flatMap argumentPath).filter (· ≠ "")

/-- The files that the settings may come from. -/
def settingsPaths : Effect (List String) := do
  let chosen ← Config.given Config.pathVariable
  let user ← Config.userFile
  return Config.variablesFile :: Config.fileName :: chosen.toList ++ user.toList

/-- The configuration file that arguments ask for, empty for none. -/
def chosenConfig (args : List String) : String :=
  let chosen := do
    let (v, rest) ← Verb.find args
    let p ← parse (v.flags ++ v.infoFlags) rest
    return p.values.text "config"
  chosen.toOption.getD ""

/-- The paths that the settings of a command name: the store of laid out diagrams, the layout tool
and the directory of the diagrams. Nothing when the settings cannot be loaded. -/
def settledPaths (args : List String) : Effect (List String) := do
  match ← Config.load (chosenConfig args) with
  | .error _ => return []
  | .ok c => return (← c.cacheDir).toList ++ [c.render.command, c.output.dir]

end CommandLine
end ApiDiagrams
