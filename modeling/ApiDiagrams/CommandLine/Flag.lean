import ApiDiagrams.CommandLine.CommaList
import ApiDiagrams.Data.Word
import ApiDiagrams.Fault
import ApiDiagrams.Text.Quoted

/-!
# Flags of the command line

A flag has a long name and may have a letter. Switches and counters need no value; other flags take
the text after an equals sign or the next argument. Letters may stand together behind one dash.
Arguments after `--` are no flags.

* `Flag`, `Value`, `Values`: flags and what was given for them;
* `Flag.read`: the value of a flag after one more use of it;
* `parse`: the flags and the other arguments of a command.
-/

namespace ApiDiagrams
namespace CommandLine

/-- What a flag takes. -/
inductive FlagKind
  /-- May be repeated; the number of times counts. -/
  | count
  | switch
  | text
  /-- May be repeated; each use takes a list. -/
  | list
  deriving DecidableEq, Repr, Inhabited

/-- A flag. -/
structure Flag where
  name : String
  letter : Option Char := none
  kind : FlagKind
  deriving DecidableEq, Repr, Inhabited

/-- What was given for a flag. -/
inductive Value
  | count (n : Int)
  | switch (on : Bool)
  | text (t : String)
  | list (items : List String)
  deriving DecidableEq, Repr, Inhabited

/-- What was given for flags, by name. -/
abbrev Values := List (String × Value)

namespace Values

/-- Replaces what was given for a flag. -/
def put (vs : Values) (name : String) (v : Value) : Values :=
  (name, v) :: vs.filter fun (n, _) => n ≠ name

/-- The flag was given. -/
def has (vs : Values) (name : String) : Bool := (vs.lookup name).isSome

/-- How often a flag was given. -/
def count (vs : Values) (name : String) : Int :=
  match vs.lookup name with
  | some (.count n) => n
  | _ => 0

/-- A switch is on. -/
def switch (vs : Values) (name : String) : Bool :=
  match vs.lookup name with
  | some (.switch on) => on
  | _ => false

/-- The text given for a flag. -/
def text (vs : Values) (name : String) : String :=
  match vs.lookup name with
  | some (.text t) => t
  | _ => ""

/-- The items given for a flag. -/
def list (vs : Values) (name : String) : List String :=
  match vs.lookup name with
  | some (.list items) => items
  | _ => []

end Values

/-- The text of a switch. -/
def switch? (text : String) : Option Bool :=
  if ["1", "t", "T", "TRUE", "true", "True"].contains text then some true
  else if ["0", "f", "F", "FALSE", "false", "False"].contains text then some false
  else none

/-- Why a text is no number. -/
inductive BadNumber
  | malformed
  | tooLarge
  deriving DecidableEq, Repr

/-- The base that the front of a number names, and the digits. -/
def numberBase : List Char → Nat × List Char
  | '0' :: c :: d :: rest =>
    match Text.lower c with
    | 'b' => (2, d :: rest)
    | 'o' => (8, d :: rest)
    | 'x' => (16, d :: rest)
    | _ => (8, c :: d :: rest)
  | '0' :: rest => (8, rest)
  | digits => (10, digits)

/-- A letter or a digit as a digit. -/
def digit? (base : Nat) (c : Char) : Option Nat :=
  let n :=
    if Text.isDigit c then some (c.toNat - 48)
    else if Text.isLetter c then some ((Text.lower c).toNat - 87)
    else none
  n.filter (· < base)

/-- Underscores stand between digits, or after the base. -/
def separatorsFit (afterDigit : Bool) : List Char → Bool
  | [] => true
  | '_' :: rest => afterDigit && !rest.isEmpty && rest.head? ≠ some '_' && separatorsFit false rest
  | _ :: rest => separatorsFit true rest

/-- The number that digits write after those of `sofar`. The first character that is no digit, or
at which the number outgrows a word, tells what is wrong. -/
def magnitude (base : Nat) : (sofar : Nat) → List Char → Except BadNumber Nat
  | n, [] => .ok n
  | n, '_' :: rest => magnitude base n rest
  | n, c :: rest =>
    match digit? base c with
    | none => .error .malformed
    | some d =>
      if n * base + d < Word.count then magnitude base (n * base + d) rest else .error .tooLarge

/-- The whole number that a text writes, in a 64-bit word. -/
def integer (text : String) : Except BadNumber Int := do
  let (negative, body) :=
    match text.toList with
    | '-' :: rest => (true, rest)
    | '+' :: rest => (false, rest)
    | cs => (false, cs)
  if body.isEmpty then throw .malformed
  let (base, digits) := numberBase body
  let n ← magnitude base 0 digits
  if digits.contains '_' && !separatorsFit (base ≠ 10) digits then throw .malformed
  else if n > Word.half || (n = Word.half && !negative) then throw .tooLarge
  else return if negative then -(n : Int) else n

/-- What is wrong with a text for a switch or a counter, in words. -/
def badValue (reader text cause : String) : String :=
  "strconv." ++ reader ++ ": parsing " ++ Text.quote text ++ ": " ++ cause

namespace Flag

/-- The text that a flag without one stands for. -/
def implied (f : Flag) : Option String :=
  match f.kind with
  | .count => some "+1"
  | .switch => some "true"
  | .text | .list => none

/-- The value of a flag after one more use of it, or what is wrong. -/
def read (f : Flag) (vs : Values) (raw : String) : Except String Value :=
  match f.kind with
  | .count =>
    if raw = "+1" then .ok (.count (Word.wrap (vs.count f.name + 1)))
    else
      match integer raw with
      | .ok n => .ok (.count n)
      | .error .malformed => .error (badValue "ParseInt" raw "invalid syntax")
      | .error .tooLarge => .error (badValue "ParseInt" raw "value out of range")
  | .switch =>
    match switch? raw with
    | some on => .ok (.switch on)
    | none => .error (badValue "ParseBool" raw "invalid syntax")
  | .text => .ok (.text raw)
  | .list =>
    match CommaList.parse raw with
    | .ok items => .ok (.list (vs.list f.name ++ items))
    | .error m => .error m.text

/-- How messages name a flag. -/
def title (f : Flag) : String :=
  match f.letter with
  | some c => "-" ++ c.toString ++ ", --" ++ f.name
  | none => "--" ++ f.name

/-- What was given after one more use of a flag. -/
def use (f : Flag) (vs : Values) (raw : String) : Except Fault Values :=
  match f.read vs raw with
  | .ok v => .ok (vs.put f.name v)
  | .error cause =>
    .error (.plain ("invalid argument " ++ Text.quote raw ++ " for " ++ Text.quote f.title ++
      " flag: " ++ cause))

end Flag

/-- The flag of a long name. -/
def byName (flags : List Flag) (name : List Char) : Option Flag :=
  flags.find? fun f => f.name.toList == name

/-- The flag of a letter. -/
def byLetter (flags : List Flag) (c : Char) : Option Flag := flags.find? fun f => f.letter == some c

/-- A letter between single quotes, with escapes. Of what is not ASCII only the first byte is taken
for a letter, and of the letter with that number again only the first byte. -/
def quoteLetter (c : Char) : String :=
  let first (c : Char) : Char := Char.ofNat (c.toString.toUTF8.data[0]?.getD 0).toNat
  let shown := first (first c)
  let inside :=
    if shown = '\'' then ['\\', '\'']
    else if shown = '"' then ['"']
    else Text.quoteChar shown
  String.ofList ('\'' :: inside ++ ['\''])

/-- What is known while arguments are read: what was given, and the other arguments. -/
structure Parsed where
  values : Values := []
  arguments : List String := []
  deriving DecidableEq, Repr, Inhabited

/-- Reads a long flag; the arguments after it are returned. -/
def parseLong (flags : List Flag) (values : Values) (argument : String) (rest : List String) :
    Except Fault (Values × List String) := do
  let body := argument.toList.drop 2
  if body.head? = some '-' || body.head? = some '=' then
    throw (.plain ("bad flag syntax: " ++ argument))
  let (name, given) :=
    match Text.cutAt '=' body with
    | some (name, text) => (name, some (String.ofList text))
    | none => (body, none)
  match byName flags name with
  | none => throw (.plain ("unknown flag: --" ++ String.ofList name))
  | some f =>
    match given.or f.implied, rest with
    | some raw, rest => return (← f.use values raw, rest)
    | none, raw :: rest => return (← f.use values raw, rest)
    | none, [] => throw (.plain ("flag needs an argument: " ++ argument))

/-- Letters that start in this way are for whoever tests the program, and are skipped. -/
def testMark : List Char := "test.".toList

/-- Reads letters behind one dash; the arguments after them are returned. -/
def parseLetters (flags : List Flag) : Values → List Char → List String →
    Except Fault (Values × List String)
  | values, [], rest => .ok (values, rest)
  | values, c :: more, rest => do
    let shown := "-" ++ String.ofList (c :: more)
    if Text.startsWith testMark (c :: more) then return (values, rest)
    match byLetter flags c with
    | none =>
      throw (.plain ("unknown shorthand flag: " ++ quoteLetter c ++ " in " ++ shown))
    | some f =>
      match more with
      | '=' :: d :: text => return (← f.use values (String.ofList (d :: text)), rest)
      | _ =>
        match f.implied, more, rest with
        | some raw, _, _ => parseLetters flags (← f.use values raw) more rest
        | none, d :: text, _ => return (← f.use values (String.ofList (d :: text)), rest)
        | none, [], raw :: rest => return (← f.use values raw, rest)
        | none, [], [] =>
          throw (.plain ("flag needs an argument: " ++ quoteLetter c ++ " in " ++ shown))

/-- Reads arguments; `fuel` bounds their number. -/
def parseFrom (flags : List Flag) : (fuel : Nat) → Parsed → List String → Except Fault Parsed
  | 0, p, _ | _, p, [] => .ok p
  | fuel + 1, p, a :: rest =>
    match a.toList with
    | ['-', '-'] => .ok { p with arguments := p.arguments ++ rest }
    | '-' :: '-' :: _ => do
      let (values, rest) ← parseLong flags p.values a rest
      parseFrom flags fuel { p with values } rest
    | '-' :: c :: more => do
      let (values, rest) ← parseLetters flags p.values (c :: more) rest
      parseFrom flags fuel { p with values } rest
    | _ => parseFrom flags fuel { p with arguments := p.arguments ++ [a] } rest

/-- The flags and the other arguments of a command. -/
def parse (flags : List Flag) (args : List String) : Except Fault Parsed :=
  parseFrom flags (args.length + 1) {} args

end CommandLine
end ApiDiagrams
