import ApiDiagrams.Tool.Utility

/-!
# Running scripts

* `Shell.run`: runs a command;
* `Shell.perform`: runs the commands of a script;
* `Report`, `Shell.report`: what a program wrote and how it ended.
-/

namespace ApiDiagrams
namespace Tool
namespace Shell

/-- The fields of a word while it is filled in: those that are complete, and the one that is being
made, if any. -/
abbrev Fields := List (List Char) × Option (List Char)

/-- Adds characters to the field that is being made. -/
def extend (f : Fields) (cs : List Char) : Fields := (f.1, some (f.2.getD [] ++ cs))

/-- Ends the field that is being made. -/
def close (f : Fields) : Fields := (f.1 ++ f.2.toList, none)

/-- Adds characters, which are cut at blanks unless they stood in quotes. -/
def add (quoted : Bool) (f : Fields) (cs : List Char) : Fields :=
  if quoted then extend f cs
  else cs.foldl (fun f c => if Text.isAsciiBlank c then close f else extend f [c]) f

/-- Adds the arguments, each a field of its own. -/
def addArguments (f : Fields) : List String → Fields
  | [] => f
  | a :: rest => rest.foldl (fun f b => extend (close f) b.toList) (extend f a.toList)

/-- The status of a script that was killed. -/
def killed : Nat := 137

/-- The number that an argument gives, one when there is none. -/
def levels (args : List String) : Nat := max 1 (number (args.headD "1")).toNat

/-- Runs what changes the script itself, by its name. -/
def control? (name : String) (args : List String) : Option (Shell → Shell) :=
  let leave (leaving : Leaving) (s : Shell) : Shell :=
    { s with leaving, status := match args with
      | [] => s.status
      | t :: _ => (number t % 256).toNat }
  match name with
  | "exit" => some (leave .script)
  | "return" => some (leave .definition)
  | "break" => some fun s => { s with leaving := .loop (levels args) false, status := 0 }
  | "continue" => some fun s => { s with leaving := .loop (levels args) true, status := 0 }
  | "kill" =>
    some (if args.contains "-0" then finish 0
      else fun s => { s with leaving := .script, status := killed })
  | "shift" => some fun s => { s with arguments := s.arguments.drop (levels args), status := 0 }
  | "unset" =>
    some fun s =>
      { s with bindings := s.bindings.filter fun (n, _) => !args.contains n, status := 0 }
  | "set" =>
    some fun s =>
      match args with
      | "--" :: rest => { s with arguments := rest, status := 0 }
      | options =>
        let strict := if options.any (· = "+e") then false
          else s.strict || options.any fun o =>
            Text.startsWith ['-'] o.toList && o.toList.contains 'e'
        { s with strict, status := 0 }
  | _ => none

/-- A loop goes on after its body: the state then, and whether it does. -/
def afterBody (s : Shell) : Shell × Bool :=
  match s.leaving with
  | .nothing => (s, true)
  | .loop levels again =>
    if levels ≤ 1 then ({ s with leaving := .nothing }, again)
    else ({ s with leaving := .loop (levels - 1) again }, false)
  | _ => (s, false)

/-- What a state takes over from one in which commands ran apart. -/
def rejoin (s after : Shell) : Shell :=
  { s with input := after.input, written := after.written, files := after.files
           status := after.status, pipes := after.pipes }

/-- The streams lead where they led before redirections, and a redirected input is given up. -/
def restore (s : Shell) (rs : List Redirect) (after : Shell) : Shell :=
  let takesInput := rs.any fun
    | .fromFile _ | .fromText _ => true
    | _ => false
  { after with streams := s.streams, input := if takesInput then s.input else after.input }

/-- Variables that were set for one command have the values that they had before. -/
def unbind (s : Shell) (ss : List (String × Word)) (after : Shell) : Shell :=
  let isSet (name : String) : Bool := ss.any fun (n, _) => n = name
  { after with bindings := (s.bindings.filter fun (n, _) => isSet n) ++
      after.bindings.filter fun (n, _) => !isSet n }

/-- A failed command ends a strict script, unless its failure is looked at. -/
def judge (tested : Bool) (s : Shell) : Shell :=
  if s.strict && !tested && s.status ≠ 0 && s.leaving = .nothing then { s with leaving := .script }
  else s

mutual

/-- Adds a piece of a word. -/
def fill : (fuel : Nat) → Shell × Fields → Piece → Shell × Fields
  | 0, r, _ => r
  | fuel + 1, (s, f), piece =>
    match piece with
    | .text cs _ => (s, extend f cs)
    | .parameter ['@'] true => (s, addArguments f s.arguments)
    | .parameter ('#' :: c :: rest) quoted =>
      (s, add quoted f (toString (s.lookUp (c :: rest)).length).toList)
    | .parameter parameter quoted =>
      let (name, form) := nameAndForm parameter
      let (s, operand) :=
        if form.isEmpty then (s, "")
        else
          let raw := operandOf form
          match wordPieces (fun _ => false) (raw.length + 1) raw with
          | some (w, _) => text fuel s w
          | none => (s, String.ofList raw)
      let (value, binding) := s.formed name form operand
      let s := match binding with
        | some v => s.set (String.ofList name) v
        | none => s
      (s, add quoted f value.toList)
    | .output script quoted =>
      match Command.parse? script with
      | none => (s.finish 2, f)
      | some c =>
        let pipe := Sink.pipe s.pipes
        let after := run fuel false c
          { s with streams := (1, pipe) :: s.streams, pipes := s.pipes + 1 }
        let told := Text.charsLossy (after.sent pipe)
        (s.rejoin after, add quoted f (Text.dropTrailing (· == '\n') told))
    | .sum formula quoted =>
      match s.sum? formula with
      | some n => (s, add quoted f (toString n).toList)
      | none => (s.finish 2, f)

/-- The fields of a word. -/
def fields : (fuel : Nat) → Shell → Word → Shell × List String
  | 0, s, _ => (s, [])
  | fuel + 1, s, w =>
    let (s, f) := w.foldl (fill fuel) (s, ([], none))
    (s, (close f).1.map String.ofList)

/-- The fields of words. -/
def allFields : (fuel : Nat) → Shell → List Word → Shell × List String
  | 0, s, _ => (s, [])
  | fuel + 1, s, ws =>
    ws.foldl
      (fun (s, done) w =>
        let (s, fs) := fields fuel s w
        (s, done ++ fs))
      (s, [])

/-- A word as one text. -/
def text : (fuel : Nat) → Shell → Word → Shell × String
  | 0, s, _ => (s, "")
  | fuel + 1, s, w =>
    let quoted : Word := w.map fun
      | .parameter ['@'] _ => .parameter ['*'] true
      | .parameter name _ => .parameter name true
      | .output script _ => .output script true
      | .sum formula _ => .sum formula true
      | piece => piece
    let (s, f) := quoted.foldl (fill fuel) (s, ([], none))
    (s, String.ofList ((close f).1.flatMap id))

/-- Redirects streams one after the other. Tells whether all of that was possible. -/
def redirectAll : (fuel : Nat) → (line : Nat) → Shell → List Redirect → Shell × Bool
  | 0, _, s, _ => (s, false)
  | _ + 1, _, s, [] => (s, true)
  | fuel + 1, line, s, r :: rest =>
    let w := match r with
      | .duplicate _ w | .toFile _ _ w | .fromFile w | .fromText w => w
    let (s, word) := text fuel s w
    match s.redirect line r word with
    | (s, true) => redirectAll fuel line s rest
    | (s, false) => (s, false)

/-- Runs a command by its name. -/
def call : (fuel : Nat) → (line : Nat) → (name : String) → (args : List String) → Shell → Shell
  | 0, _, _, _, s => s
  | fuel + 1, line, name, args, s =>
    match s.definitions.lookup name with
    | some body =>
      let after := run fuel false body { s with arguments := args }
      let leaving := if after.leaving = .definition then .nothing else after.leaving
      { after with arguments := s.arguments, leaving }
    | none =>
      match control? name args, utility? name args with
      | some f, _ | none, some f => f s
      | none, none =>
        if name = "exec" || name = "command" then
          let after := call fuel line (args.headD ":") args.tail s
          if name = "exec" then { after with leaving := .script } else after
        else if name = "eval" then
          match Command.parse? (String.intercalate " " args).toList with
          | some c => run fuel false c s
          | none => s.finish 2
        else s.fail 127 line (name ++ ": not found")

/-- Sets variables. -/
def bind : (fuel : Nat) → Shell → List (String × Word) → Shell
  | 0, s, _ => s
  | _ + 1, s, [] => s
  | fuel + 1, s, (name, w) :: rest =>
    let (s, value) := text fuel s w
    bind fuel (s.set name value) rest

/-- Runs the body of a loop for values of a variable. -/
def overValues : (fuel : Nat) → (tested : Bool) → (name : String) → (body : Command) →
    List String → Shell → Shell
  | 0, _, _, _, _, s => s
  | _ + 1, _, _, _, [], s => s
  | fuel + 1, tested, name, body, v :: rest, s =>
    match afterBody (run fuel tested body (s.set name v)) with
    | (s, true) => overValues fuel tested name body rest s
    | (s, false) => s

/-- Runs the body of a loop while its condition has an outcome. -/
def repeating : (fuel : Nat) → (tested outcome : Bool) → (condition body : Command) → Shell → Shell
  | 0, _, _, _, _, s => s
  | fuel + 1, tested, outcome, condition, body, s =>
    let before := s.status
    let s := run fuel true condition s
    if s.leaving ≠ .nothing then (afterBody s).1
    else if (s.status = 0) ≠ outcome then s.finish before
    else
      match afterBody (run fuel tested body s) with
      | (s, true) => repeating fuel tested outcome condition body s
      | (s, false) => s

/-- Runs a command; `tested` tells that its failure is looked at. Once commands are skipped, nothing
runs any more. -/
def run : (fuel : Nat) → (tested : Bool) → Command → Shell → Shell
  | 0, _, _, s => s
  | fuel + 1, tested, c, s =>
    if s.leaving ≠ .nothing then s
    else
      match c with
      | .nothing => s
      | .simple line ss ws rs =>
        let (s, fs) := allFields fuel s ws
        let (inside, ok) := redirectAll fuel line s rs
        match fs with
        | ["exec"] => inside
        | name :: args =>
          let after := if ok then call fuel line name args (bind fuel inside ss) else inside
          judge tested (s.restore rs (s.unbind ss after))
        | [] =>
          judge tested (s.restore rs (if ok then bind fuel (inside.finish 0) ss else inside))
      | .sequence a b => run fuel tested b (run fuel tested a s)
      | .andThen a b =>
        let s := run fuel true a s
        if s.status = 0 then run fuel tested b s else s
      | .orElse a b =>
        let s := run fuel true a s
        if s.status = 0 then s else run fuel tested b s
      | .negated c =>
        let s := run fuel true c s
        if s.leaving ≠ .nothing then s else s.finish (if s.status = 0 then 1 else 0)
      | .piped a b =>
        let pipe := Sink.pipe s.pipes
        let first := run fuel true a
          { s with streams := (1, pipe) :: s.streams, pipes := s.pipes + 1 }
        let second := run fuel tested b { s.rejoin first with input := first.sent pipe }
        { s.rejoin second with input := first.input }
      | .branch c yes no =>
        let s := run fuel true c s
        if s.leaving ≠ .nothing then s
        else if s.status = 0 then run fuel tested yes s
        else run fuel tested no (s.finish 0)
      | .loop outcome condition body =>
        repeating fuel tested outcome condition body (s.finish 0)
      | .each name values body =>
        let (s, vs) := match values with
          | some ws => allFields fuel s ws
          | none => (s, s.arguments)
        overValues fuel tested name body vs (s.finish 0)
      | .choice w ps body others =>
        let (s, t) := text fuel s w
        let (s, hit) := ps.foldl
          (fun (s, hit) p =>
            let (s, pattern) := text fuel s p
            (s, hit || fits pattern.toList t.toList))
          (s, false)
        run fuel tested (if hit then body else others) (s.finish 0)
      | .apart c => s.rejoin (run fuel tested c s)
      | .define name body =>
        { s with definitions := (name, body) :: s.definitions, status := 0 }
      | .redirected c rs =>
        let (inside, ok) := redirectAll fuel 0 s rs
        s.restore rs (if ok then run fuel tested c inside else inside)

end

end Shell

/-- What a program wrote and how it ended. -/
structure Report where
  output : ByteArray := .empty
  errors : ByteArray := .empty
  status : Nat := 0
  deriving DecidableEq, Inhabited

namespace Shell

/-- What a shell tells in the end. -/
def report (s : Shell) : Report where
  output := s.sent .output
  errors := s.sent .errors
  status := s.status

/-- How many commands may run inside or after one another. -/
def patience : Nat := 100000

/-- Runs the commands of a script. A script that cannot be read ends with status 2. -/
def perform (script : List Char) (s : Shell) : Shell :=
  match Command.parse? script with
  | some c => s.run patience false c
  | none => s.fail 2 1 "Syntax error"

end Shell
end Tool
end ApiDiagrams
