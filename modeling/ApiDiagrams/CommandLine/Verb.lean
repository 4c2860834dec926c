import ApiDiagrams.CommandLine.Flag
import ApiDiagrams.Text.LetterCase

/-!
# Commands of the command line

* `Verb`: the commands;
* `Verb.find`: the command that arguments ask for, and the arguments without its name;
* `Verb.checkArguments`: the arguments fit the command;
* `Verb.suggestions`: the commands that a misspelt name may mean.
-/

namespace ApiDiagrams
namespace CommandLine

/-- The commands. -/
inductive Verb
  /-- No command at all. -/
  | root
  | generate
  | render
  | serve
  | dotVersion
  | cache
  | cacheClear
  | cachePath
  | completion
  | help
  deriving DecidableEq, Repr, Inhabited

namespace Verb

/-- The name of the program. -/
def program : String := "docgraph"

/-- The name of a command. -/
def name : Verb → String
  | .root => program
  | .generate => "generate"
  | .render => "render"
  | .serve => "serve"
  | .dotVersion => "dot-version"
  | .cache => "cache"
  | .cacheClear => "clear"
  | .cachePath => "path"
  | .completion => "completion"
  | .help => "help"

/-- The names from the program down to a command. -/
def path : Verb → String
  | .root => program
  | .cacheClear => program ++ " cache clear"
  | .cachePath => program ++ " cache path"
  | v => program ++ " " ++ v.name

/-- The commands below a command. -/
def children : Verb → List Verb
  | .root => [.generate, .render, .serve, .dotVersion, .cache, .completion, .help]
  | .cache => [.cacheClear, .cachePath]
  | _ => []

/-- The command does something of its own; others only show help. -/
def isRunnable (v : Verb) : Bool := v.children.isEmpty

/-- The flags of every command. -/
def commonFlags : List Flag := [
  { name := "verbose", letter := some 'v', kind := .count },
  { name := "quiet", letter := some 'q', kind := .count },
  { name := "debug", kind := .switch },
  { name := "config", kind := .text }]

/-- The flags that choose diagrams and where they go. -/
def generateFlags : List Flag := [
  { name := "output", letter := some 'o', kind := .text },
  { name := "format", letter := some 'T', kind := .text },
  { name := "center", kind := .switch },
  { name := "no-cache", kind := .switch },
  { name := "no-index", kind := .switch },
  { name := "kind", letter := some 'k', kind := .text },
  { name := "target", letter := some 't', kind := .list },
  { name := "current", kind := .text },
  { name := "dir", kind := .text },
  { name := "style", kind := .text },
  { name := "callers", kind := .switch },
  { name := "callees", kind := .switch },
  { name := "caption", kind := .text }]

/-- The flags of a command. -/
def flags : Verb → List Flag
  | .generate => generateFlags ++ commonFlags
  | .serve => generateFlags ++ [
      { name := "addr", kind := .text },
      { name := "watch", letter := some 'w', kind := .switch }] ++ commonFlags
  | .render => [
      { name := "output", letter := some 'o', kind := .text },
      { name := "format", letter := some 'T', kind := .text },
      { name := "no-cache", kind := .switch }] ++ commonFlags
  | _ => commonFlags

/-- The flags that ask for help or for the version. -/
def infoFlags (v : Verb) : List Flag :=
  { name := "help", letter := some 'h', kind := .switch } ::
    (if v = .root then [{ name := "version", kind := .switch }] else [])

/-! ### Finding the command -/

/-- The argument is a flag whose value is the next argument, as far as the flags are known. -/
def takesNext (flags : List Flag) (argument : String) : Bool :=
  match argument.toList with
  | '-' :: '-' :: name =>
    !name.contains '=' && ((byName flags name).bind Flag.implied).isNone
  | ['-', c] => c ≠ '=' && c.toNat < 0x80 && ((byLetter flags c).bind Flag.implied).isNone
  | _ => false

/-- The argument is no flag. -/
def isPlain (argument : String) : Bool := argument.toList.head? ≠ some '-'

/-- The arguments that are neither flags nor values of flags. -/
def plainArguments (flags : List Flag) : List String → List String
  | [] => []
  | a :: rest =>
    if a = "--" then []
    else if takesNext flags a then
      match rest with
      | [] | [_] => []
      | _ :: b :: more => plainArguments flags (b :: more)
    else if a ≠ "" && isPlain a then a :: plainArguments flags rest
    else plainArguments flags rest

/-- The arguments without the first one that is the given word. -/
def without (flags : List Flag) (word : String) : List String → List String
  | [] => []
  | a :: rest =>
    if a = "--" then a :: rest
    else if takesNext flags a then
      match rest with
      | [] => [a]
      | b :: more => a :: b :: without flags word more
    else if a = word then rest
    else a :: without flags word rest

/-- Goes down to the command that arguments ask for; `fuel` bounds the depth. -/
def descend : (fuel : Nat) → Verb → List String → Verb × List String
  | 0, v, args => (v, args)
  | fuel + 1, v, args =>
    match plainArguments v.flags args with
    | [] => (v, args)
    | word :: _ =>
      match v.children.find? (·.name == word) with
      | some child => descend fuel child (without v.flags word args)
      | none => (v, args)

/-! ### Suggestions -/

/-- The costs of turning the first characters of a word into another word, from the costs for one
character less: `left` is the cost to the left, `above` the costs before. -/
def editRow (c : UInt8) : (left : Nat) → (above : List Nat) → (word : List UInt8) → List Nat
  | left, a :: b :: above, d :: word =>
    let cost := if c = d then a else min (min left b) a + 1
    cost :: editRow c cost (b :: above) word
  | _, _, _ => []

/-- How many bytes must be changed, added or removed to turn one word into the other. -/
def editDistance (s t : List UInt8) : Nat :=
  let first := List.range (t.length + 1)
  let row (costs : List Nat) (c : UInt8) : List Nat :=
    let left := costs.headD 0 + 1
    left :: editRow c left costs t
  (s.foldl row first).getLastD 0

/-- The distance up to which another name is suggested. -/
def nearby : Nat := 2

/-- The commands that a misspelt name may mean. -/
def suggestions (v : Verb) (typed : String) : List String :=
  let t := Text.lowerText typed
  (v.children.filter (· ≠ .help)).filterMap fun child =>
    let near := editDistance t.toUTF8.toList child.name.toUTF8.toList ≤ nearby
    if near || Text.startsWith t.toList child.name.toList then some child.name else none

/-- The question that follows a misspelt name. -/
def question (v : Verb) (typed : String) : String :=
  match v.suggestions typed with
  | [] => ""
  | names => "\n\nDid you mean this?\n" ++ String.join (names.map fun n => "\t" ++ n ++ "\n")

/-- The command that arguments ask for, and the arguments without its name. The program itself
takes no other words. -/
def find (args : List String) : Except Fault (Verb × List String) :=
  let (v, rest) := descend 3 .root args
  match v, plainArguments v.flags rest with
  | .root, word :: _ =>
    .error (.plain ("unknown command " ++ Text.quote word ++ " for " ++ Text.quote v.path ++
      question v word))
  | v, _ => .ok (v, rest)

/-- The shells that completion scripts are written for. -/
def completionShells : List String := ["bash", "zsh", "fish", "powershell"]

/-- The command takes a given number of arguments. -/
def exactly (n : Nat) (args : List String) : Except Fault Unit :=
  if args.length = n then .ok ()
  else .error (.plain ("accepts " ++ toString n ++ " arg(s), received " ++ toString args.length))

/-- Checks the arguments of a command. -/
def checkArguments (v : Verb) (args : List String) : Except Fault Unit :=
  match v with
  | .generate | .render | .serve => exactly 1 args
  | .dotVersion | .cacheClear | .cachePath =>
    match args with
    | [] => .ok ()
    | a :: _ =>
      .error (.plain ("unknown command " ++ Text.quote a ++ " for " ++ Text.quote v.path))
  | .completion => do
    exactly 1 args
    match args.find? fun a => !completionShells.contains a with
    | none => return ()
    | some a =>
      .error (.plain ("invalid argument " ++ Text.quote a ++ " for " ++ Text.quote v.path))
  | .root | .cache | .help => .ok ()

end Verb
end CommandLine
end ApiDiagrams
