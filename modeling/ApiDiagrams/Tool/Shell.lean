import ApiDiagrams.Files.Tree
import ApiDiagrams.Text.Utf8
import ApiDiagrams.Tool.Command

/-!
# Shells

A shell is the state of a running script: its streams, its parameters and the files that it sees.

* `Shell`: the state;
* `Shell.write`, `Shell.redirect`: streams;
* `Shell.lookUp`, `Shell.formed`: parameters;
* `Shell.sum?`: the value of a sum.
-/

namespace ApiDiagrams
namespace Tool

/-- Where a stream leads. -/
inductive Sink
  | output
  | errors
  | nowhere
  /-- Another command, or a word that is filled in. -/
  | pipe (n : Nat)
  | file (path : String)
  deriving DecidableEq, Repr, Inhabited

/-- What the commands that follow are skipped for. -/
inductive Leaving
  | nothing
  /-- So many loops are left; the outermost of them may go on. -/
  | loop (levels : Nat) (again : Bool)
  /-- Named commands are left. -/
  | definition
  | script
  deriving DecidableEq, Repr, Inhabited

/-- A running script. -/
structure Shell where
  /-- The name under which the script was called. -/
  name : String
  arguments : List String := []
  bindings : List (String × String) := []
  definitions : List (String × Command) := []
  /-- What has not been read yet. -/
  input : ByteArray := .empty
  /-- Where the streams lead, by number. -/
  streams : List (Nat × Sink) := [(1, .output), (2, .errors)]
  /-- What was written, by where it went. -/
  written : List (Sink × ByteArray) := []
  /-- The number of pipes so far. -/
  pipes : Nat := 0
  /-- How the last command ended. -/
  status : Nat := 0
  leaving : Leaving := .nothing
  /-- The script ends when a command fails that is not tested. -/
  strict : Bool := false
  files : FileTree := {}
  deriving Inhabited

namespace Shell

/-! ### Streams -/

/-- What went somewhere. -/
def sent (s : Shell) (sink : Sink) : ByteArray := (s.written.lookup sink).getD .empty

/-- Sends bytes somewhere. -/
def send (bytes : ByteArray) (s : Shell) : Sink → Shell
  | .nowhere => s
  | .file path =>
    match s.files.write path ((s.files.read path).toOption.getD .empty ++ bytes) with
    | .ok files => { s with files }
    | .error _ => s
  | sink =>
    { s with written :=
        (sink, s.sent sink ++ bytes) :: s.written.filter fun (other, _) => other ≠ sink }

/-- Where a stream leads. -/
def sinkOf (s : Shell) (stream : Nat) : Sink := (s.streams.lookup stream).getD .nowhere

/-- Writes to the output. -/
def write (bytes : List UInt8) (s : Shell) : Shell := s.send ⟨bytes.toArray⟩ (s.sinkOf 1)

/-- Writes to the errors. -/
def complain (text : String) (s : Shell) : Shell := s.send text.toUTF8 (s.sinkOf 2)

/-- Ends a command. -/
def finish (status : Nat) (s : Shell) : Shell := { s with status }

/-- Ends a command with a complaint under the name of the script. -/
def fail (status line : Nat) (text : String) (s : Shell) : Shell :=
  (s.complain (s.name ++ ": " ++ toString line ++ ": " ++ text ++ "\n")).finish status

/-- The words of the operating system for why a file cannot be opened. -/
def openFailure : FileFailure → String
  | .missing => "No such file"
  | .isDirectory => "Is a directory"
  | .notDirectory => "Not a directory"
  | .tooLong => "File name too long"
  | _ => "Invalid argument"

/-- A redirection with its word filled in: the streams lead elsewhere, or the input is another.
Nothing when that cannot be. -/
def redirect (line : Nat) (s : Shell) (r : Redirect) (word : String) : Shell × Bool :=
  let lead (stream : Nat) (sink : Sink) : Shell × Bool :=
    ({ s with streams := (stream, sink) :: s.streams }, true)
  match r with
  | .duplicate n _ => lead n (if word = "2" then s.sinkOf 2 else if word = "1" then s.sinkOf 1
      else .nowhere)
  | .toFile n append _ =>
    if word = "/dev/null" then lead n .nowhere
    else if word = "/dev/stderr" then lead n (s.sinkOf 2)
    else if word = "/dev/stdout" then lead n (s.sinkOf 1)
    else
      let before := if append then (s.files.read word).toOption.getD .empty else .empty
      match s.files.write word before with
      | .ok files => ({ s with files, streams := (n, .file word) :: s.streams }, true)
      | .error .missing =>
        (s.fail 2 line ("cannot create " ++ word ++ ": Directory nonexistent"), false)
      | .error e => (s.fail 2 line ("cannot create " ++ word ++ ": " ++ openFailure e), false)
  | .fromFile _ =>
    match s.files.read word with
    | .ok input => ({ s with input }, true)
    | .error e => (s.fail 2 line ("cannot open " ++ word ++ ": " ++ openFailure e), false)
  | .fromText _ => ({ s with input := word.toUTF8 }, true)

/-! ### Parameters -/

/-- Sets a variable. -/
def set (name value : String) (s : Shell) : Shell :=
  { s with bindings := (name, value) :: s.bindings.filter fun (n, _) => n ≠ name }

/-- The value of a parameter by its name, if it has one. -/
def lookUp? (s : Shell) (parameter : List Char) : Option String :=
  match parameter with
  | ['#'] => some (toString s.arguments.length)
  | ['?'] => some (toString s.status)
  | ['*'] | ['@'] =>
    if s.arguments.isEmpty then none else some (String.intercalate " " s.arguments)
  | ['-'] => some (if s.strict then "e" else "")
  | ['0'] => some s.name
  | name =>
    if !name.isEmpty && name.all Text.isDigit then s.arguments[Text.decimalNumber name - 1]?
    else s.bindings.lookup (String.ofList name)

/-- The value of a parameter by its name, empty when it has none. -/
def lookUp (s : Shell) (parameter : List Char) : String := (s.lookUp? parameter).getD ""

/-- The text fits a pattern in which `*` stands for any characters and `?` for one. -/
def fits : (pattern text : List Char) → Bool
  | [], [] => true
  | '*' :: ps, [] => fits ps []
  | '*' :: ps, c :: cs => fits ps (c :: cs) || fits ('*' :: ps) cs
  | '?' :: ps, _ :: cs => fits ps cs
  | p :: ps, c :: cs => p == c && fits ps cs
  | _, _ => false
termination_by pattern text => pattern.length + text.length

/-- The text without a front that fits a pattern, the shortest or the longest one. -/
def withoutFront (pattern : List Char) (longest : Bool) (text : List Char) : List Char :=
  let lengths := List.range (text.length + 1)
  let lengths := if longest then lengths.reverse else lengths
  match lengths.find? fun n => fits pattern (text.take n) with
  | some n => text.drop n
  | none => text

/-- The text without an end that fits a pattern, the shortest or the longest one. -/
def withoutEnd (pattern : List Char) (longest : Bool) (text : List Char) : List Char :=
  let kept := List.range (text.length + 1)
  let kept := if longest then kept else kept.reverse
  match kept.find? fun n => fits pattern (text.drop n) with
  | some n => text.take n
  | none => text

/-- The name of a parameter, and the form that follows it. -/
def nameAndForm (parameter : List Char) : List Char × List Char :=
  match parameter with
  | c :: rest =>
    if Text.isWord c then Text.span Text.isWord parameter
    else if isParameterSign c then ([c], rest)
    else (parameter, [])
  | [] => ([], [])

/-- A parameter with its form: the text for it, and a value to set it to. The operand of the form is
given filled in. -/
def formed (s : Shell) (name form : List Char) (operand : String) : String × Option String :=
  let value := s.lookUp name
  let isSet := (s.lookUp? name).isSome
  let isFull := value ≠ ""
  let cut (f : List Char → List Char → List Char) : String × Option String :=
    (String.ofList (f operand.toList value.toList), none)
  match form with
  | ':' :: '-' :: _ => (if isFull then value else operand, none)
  | '-' :: _ => (if isSet then value else operand, none)
  | ':' :: '+' :: _ => (if isFull then operand else "", none)
  | '+' :: _ => (if isSet then operand else "", none)
  | ':' :: '=' :: _ => if isFull then (value, none) else (operand, some operand)
  | '=' :: _ => if isSet then (value, none) else (operand, some operand)
  | '#' :: '#' :: _ => cut (withoutFront · true ·)
  | '#' :: _ => cut (withoutFront · false ·)
  | '%' :: '%' :: _ => cut (withoutEnd · true ·)
  | '%' :: _ => cut (withoutEnd · false ·)
  | _ => (value, none)

/-- The operand of a form. -/
def operandOf (form : List Char) : List Char :=
  match form with
  | ':' :: _ :: rest | '#' :: '#' :: rest | '%' :: '%' :: rest => rest
  | _ :: rest => rest
  | [] => []

/-! ### Sums -/

/-- A number or a variable at the front of a sum, and the rest. -/
def operand? (s : Shell) (text : List Char) : Option (Int × List Char) :=
  match text with
  | [] => none
  | c :: _ =>
    let (word, rest) := Text.span Text.isWord text
    if Text.isDigit c then some (Text.decimalNumber word, rest)
    else if word.isEmpty then none
    else
      match (s.lookUp word).toList with
      | '-' :: ds => some (-(Text.decimalNumber ds : Int), rest)
      | ds => some (Text.decimalNumber ds, rest)

mutual

/-- A number, a variable, or a sum in brackets. -/
def factor? (s : Shell) : (fuel : Nat) → List Char → Option (Int × List Char)
  | 0, _ => none
  | fuel + 1, '(' :: rest => do
    match ← terms? s fuel rest with
    | (n, ')' :: rest) => some (n, rest)
    | _ => none
  | fuel + 1, '-' :: rest => (factor? s fuel rest).map fun (n, rest) => (-n, rest)
  | fuel + 1, '+' :: rest => factor? s fuel rest
  | fuel + 1, '$' :: rest => factor? s fuel rest
  | _ + 1, text => operand? s text

/-- Goes on with a product whose first factors were worked out. -/
def factors? (s : Shell) : (fuel : Nat) → Int → List Char → Option (Int × List Char)
  | 0, _, _ => none
  | fuel + 1, n, c :: rest =>
    if c == '*' || c == '/' || c == '%' then do
      let (m, rest) ← factor? s fuel rest
      if c == '*' then factors? s fuel (n * m) rest
      else if m = 0 then none
      else factors? s fuel (if c == '/' then Int.tdiv n m else Int.tmod n m) rest
    else some (n, c :: rest)
  | _ + 1, n, [] => some (n, [])

/-- Goes on with a sum whose first terms were worked out. -/
def moreTerms? (s : Shell) : (fuel : Nat) → Int → List Char → Option (Int × List Char)
  | 0, _, _ => none
  | fuel + 1, n, c :: rest =>
    if c == '+' || c == '-' then do
      let (m, rest) ← factor? s fuel rest
      let (m, rest) ← factors? s fuel m rest
      moreTerms? s fuel (if c == '+' then n + m else n - m) rest
    else some (n, c :: rest)
  | _ + 1, n, [] => some (n, [])

/-- The sum at the front of a text without blanks, and the rest. -/
def terms? (s : Shell) : (fuel : Nat) → List Char → Option (Int × List Char)
  | 0, _ => none
  | fuel + 1, text => do
    let (n, rest) ← factor? s fuel text
    let (n, rest) ← factors? s fuel n rest
    moreTerms? s fuel n rest

end

/-- The value of a sum. -/
def sum? (s : Shell) (formula : List Char) : Option Int :=
  let text := formula.filter fun c => !Text.isAsciiBlank c
  match s.terms? (4 * text.length + 8) text with
  | some (n, []) => some n
  | _ => none

end Shell
end Tool
end ApiDiagrams
