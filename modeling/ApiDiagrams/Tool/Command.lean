import ApiDiagrams.Tool.Token

/-!
# Commands of scripts

* `Command`: a command, or commands joined by the signs and words of a script;
* `Command.parse?`: the commands of a script.
-/

namespace ApiDiagrams
namespace Tool

/-- Where the output or the input of a command goes. -/
inductive Redirect
  /-- What goes to the stream `stream` goes where `target` goes. -/
  | duplicate (stream : Nat) (target : Word)
  | toFile (stream : Nat) (append : Bool) (path : Word)
  | fromFile (path : Word)
  /-- The input is a text of the script. -/
  | fromText (text : Word)
  deriving DecidableEq, Repr, Inhabited

/-- A command. -/
inductive Command
  | nothing
  /-- Sets variables, and runs a command by its words when there are any. -/
  | simple (line : Nat) (settings : List (String × Word)) (words : List Word)
      (redirects : List Redirect)
  | sequence (first second : Command)
  | andThen (first second : Command)
  | orElse (first second : Command)
  | negated (c : Command)
  | piped (first second : Command)
  | branch (condition yes no : Command)
  /-- Runs `body` as long as the condition holds, or as long as it does not. -/
  | loop (holds : Bool) (condition body : Command)
  /-- Runs `body` for each value of a variable: the fields of the words, or the arguments. -/
  | each (name : String) (values : Option (List Word)) (body : Command)
  /-- Runs `body` when the word fits one of the patterns, and `others` when it does not. -/
  | choice (word : Word) (patterns : List Word) (body others : Command)
  /-- What is set inside is not known outside. -/
  | apart (c : Command)
  /-- Gives commands a name. -/
  | define (name : String) (body : Command)
  | redirected (c : Command) (redirects : List Redirect)
  deriving DecidableEq, Repr, Inhabited

namespace Command

/-- The tokens that are left while commands are read. -/
abbrev Reader := StateT (List Placed) Option

/-- The word that a token is when it stands alone and without quotes. -/
def keyword : Token → List Char
  | .word w => w.flatMap fun
    | .text cs false => cs
    | _ => ['"']
  | .operator _ => []

/-- The next token is this keyword. -/
def isKeyword (k : String) : List Placed → Bool
  | (t, _) :: _ => keyword t == k.toList
  | [] => false

/-- The next token is this operator. -/
def isOperator (o : String) : List Placed → Bool
  | (.operator p, _) :: _ => p == o.toList
  | _ => false

/-- Reads past line ends and semicolons. -/
def skipEnds : Reader Unit := modify fun ts => ts.dropWhile fun
  | (.operator o, _) => o == [';']
  | _ => false

/-- Reads a keyword that must come. -/
def expect (k : String) : Reader Unit := do
  let ts ← get
  if isKeyword k ts then set ts.tail else failure

/-- Reads an operator that must come. -/
def expectOperator (o : String) : Reader Unit := do
  let ts ← get
  if isOperator o ts then set ts.tail else failure

/-- Reads a word that must come. -/
def word : Reader Word := do
  match ← get with
  | (.word w, _) :: rest =>
    set rest
    return w
  | _ => failure

/-- The stream and the arrow of an operator that redirects. -/
def arrow? : List Char → Option (Option Nat × List Char)
  | c :: o =>
    if Text.isDigit c then some (some (c.toNat - 48), o)
    else if isArrow (c :: o) then some (none, c :: o)
    else none
  | [] => none

/-- Reads a redirection, when one comes. -/
def redirect? : Reader (Option Redirect) := do
  match ← get with
  | (.operator o, _) :: rest =>
    match arrow? o with
    | none => return none
    | some (n, o) =>
      set rest
      let w ← word
      match String.ofList o with
      | ">" => return some (.toFile (n.getD 1) false w)
      | ">>" => return some (.toFile (n.getD 1) true w)
      | ">|" => return some (.toFile (n.getD 1) false w)
      | ">&" => return some (.duplicate (n.getD 1) w)
      | "<<" => return some (.fromText w)
      | _ => return some (.fromFile w)
  | _ => return none

/-- Reads redirections as far as they come. -/
def redirects : (fuel : Nat) → Reader (List Redirect)
  | 0 => return []
  | fuel + 1 => do
    match ← redirect? with
    | some r => return r :: (← redirects fuel)
    | none => return []

/-- Reads the words and redirections of a simple command. -/
def simpleParts : (fuel : Nat) → Reader (List Word × List Redirect)
  | 0 => return ([], [])
  | fuel + 1 => do
    match ← redirect? with
    | some r =>
      let (ws, rs) ← simpleParts fuel
      return (ws, r :: rs)
    | none =>
      match ← get with
      | (.word w, _) :: rest =>
        set rest
        let (ws, rs) ← simpleParts fuel
        return (w :: ws, rs)
      | _ => return ([], [])

/-- The variable and the value of a word such as `name=value`. -/
def setting? (w : Word) : Option (String × Word) :=
  go [] w
where
  /-- Goes on after the first characters of the name. -/
  go (name : List Char) : Word → Option (String × Word)
    | .text [c] false :: rest =>
      if c == '=' then if name.isEmpty then none else some (String.ofList name.reverse, rest)
      else if Text.isWord c && !(name.isEmpty && Text.isDigit c) then go (c :: name) rest
      else none
    | _ => none

/-- The settings in front of words, and the other words. -/
def settings : List Word → List (String × Word) × List Word
  | [] => ([], [])
  | w :: rest =>
    match setting? w with
    | some s =>
      let (ss, ws) := settings rest
      (s :: ss, ws)
    | none => ([], w :: rest)

/-- Reads the words of a loop over values up to the end of their line. -/
def loopWords : (fuel : Nat) → Reader (List Word)
  | 0 => return []
  | fuel + 1 => do
    match ← get with
    | (.word w, _) :: rest =>
      set rest
      return w :: (← loopWords fuel)
    | _ => return []

/-- The name that starts the definition of commands, and the tokens after its brackets. -/
def definition? : List Placed → Option (String × List Placed)
  | (t, _) :: (.operator ['('], _) :: (.operator [')'], _) :: rest =>
    let name := keyword t
    if !name.isEmpty && name.all Text.isWord then some (String.ofList name, rest) else none
  | _ => none

/-- Reads the patterns of a choice up to the closing bracket. -/
def patterns : (fuel : Nat) → Reader (List Word)
  | 0 => failure
  | fuel + 1 => do
    let w ← word
    let ts ← get
    if isOperator "|" ts then
      set ts.tail
      return w :: (← patterns fuel)
    expectOperator ")"
    return [w]

/-- The words that end a list of commands. -/
def endsList (ts : List Placed) : Bool :=
  ts.isEmpty || isOperator ")" ts || isOperator ";;" ts ||
    ["then", "else", "elif", "fi", "esac", "do", "done", "\x7d"].any fun k => isKeyword k ts

mutual

/-- Reads the arms of a choice. -/
def arms (w : Word) : (fuel : Nat) → Reader Command
  | 0 => failure
  | fuel + 1 => do
    skipEnds
    let ts ← get
    if isKeyword "esac" ts then
      set ts.tail
      return .nothing
    if isOperator "(" ts then set ts.tail
    let ps ← patterns fuel
    let body ← list fuel
    let ts ← get
    if isOperator ";;" ts then set ts.tail
    return .choice w ps body (← arms w fuel)

/-- Reads what follows a condition. -/
def afterCondition (condition : Command) : (fuel : Nat) → Reader Command
  | 0 => failure
  | fuel + 1 => do
    expect "then"
    let yes ← list fuel
    let ts ← get
    if isKeyword "elif" ts then
      set ts.tail
      return .branch condition yes (← afterCondition (← list fuel) fuel)
    if isKeyword "else" ts then
      set ts.tail
      let no ← list fuel
      expect "fi"
      return .branch condition yes no
    expect "fi"
    return .branch condition yes .nothing

/-- Reads the commands of a loop. -/
def loopBody : (fuel : Nat) → Reader Command
  | 0 => failure
  | fuel + 1 => do
    expect "do"
    let body ← list fuel
    expect "done"
    return body

/-- Reads one command. -/
def single : (fuel : Nat) → Reader Command
  | 0 => failure
  | fuel + 1 => do
    let ts ← get
    let line := (ts.head?.map (·.2)).getD 0
    if isKeyword "while" ts || isKeyword "until" ts then
      set ts.tail
      let condition ← list fuel
      let c := .loop (isKeyword "while" ts) condition (← loopBody fuel)
      return .redirected c (← redirects ts.length)
    else if isKeyword "for" ts then
      set ts.tail
      let name := (ts.tail.head?.map fun (t, _) => keyword t).getD []
      let _ ← word
      skipEnds
      let values ←
        if isKeyword "in" (← get) then do
          expect "in"
          pure (some (← loopWords ts.length))
        else pure none
      skipEnds
      let c := .each (String.ofList name) values (← loopBody fuel)
      return .redirected c (← redirects ts.length)
    else if isKeyword "if" ts then
      set ts.tail
      let c ← afterCondition (← list fuel) fuel
      return .redirected c (← redirects ts.length)
    else if isKeyword "case" ts then
      set ts.tail
      let w ← word
      skipEnds
      expect "in"
      let c ← arms w fuel
      return .redirected c (← redirects ts.length)
    else if isKeyword "\x7b" ts then
      set ts.tail
      let c ← list fuel
      expect "\x7d"
      return .redirected c (← redirects ts.length)
    else if isOperator "(" ts then
      set ts.tail
      let c ← list fuel
      expectOperator ")"
      return .redirected (.apart c) (← redirects ts.length)
    else
      match definition? ts with
      | some (name, rest) =>
        set rest
        skipEnds
        return .define name (← single fuel)
      | none =>
        let (ws, rs) ← simpleParts ts.length
        if ws.isEmpty && rs.isEmpty then failure
        let (ss, ws) := settings ws
        return .simple line ss ws rs

/-- Reads commands joined by pipes. -/
def pipeline : (fuel : Nat) → Reader Command
  | 0 => failure
  | fuel + 1 => do
    let ts ← get
    if isKeyword "!" ts then
      set ts.tail
      return .negated (← pipeline fuel)
    let first ← single fuel
    let ts ← get
    if isOperator "|" ts then
      set ts.tail
      skipEnds
      return .piped first (← pipeline fuel)
    return first

/-- Reads what follows the first command of a conditional chain. -/
def chain (first : Command) : (fuel : Nat) → Reader Command
  | 0 => failure
  | fuel + 1 => do
    let ts ← get
    if isOperator "&&" ts then
      set ts.tail
      skipEnds
      chain (.andThen first (← pipeline fuel)) fuel
    else if isOperator "||" ts then
      set ts.tail
      skipEnds
      chain (.orElse first (← pipeline fuel)) fuel
    else return first

/-- Reads commands up to a word that ends them. -/
def list : (fuel : Nat) → Reader Command
  | 0 => failure
  | fuel + 1 => do
    skipEnds
    if endsList (← get) then return .nothing
    let first ← chain (← pipeline fuel) fuel
    let ts ← get
    if isOperator "&" ts then set ts.tail
    return .sequence first (← list fuel)

end

/-- The commands of a script. -/
def parse? (text : List Char) : Option Command := do
  let ts ← tokens? text
  let (c, rest) ← (list (4 * ts.length + 4)).run ts
  if rest.isEmpty then some c else none

end Command
end Tool
end ApiDiagrams
