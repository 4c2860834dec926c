import ApiDiagrams.Text.Blank
import ApiDiagrams.Tool.Shell

/-!
# Utilities of scripts

The commands that a script may call without naming a file.

* `Shell.echo`, `Shell.printf`: writing;
* `Shell.readLine`, `Shell.cat`, `Shell.head`, `Shell.count`, `Shell.replace`: the input;
* `Shell.holds`: tests;
* `Shell.utility?`: a utility by its name.
-/

namespace ApiDiagrams
namespace Tool
namespace Shell

/-- The bytes of a text. -/
def bytesOf (text : List Char) : List UInt8 := (String.ofList text).toUTF8.toList

/-! ### Writing -/

/-- The bytes that a backslash with a letter stands for. -/
def escapes : List (Char × UInt8) := [
  ('n', 10), ('t', 9), ('r', 13), ('a', 7), ('b', 8), ('f', 12), ('v', 11), ('\\', 92)]

/-- The byte that up to three octal digits write, and the rest. -/
def octal (text : List Char) : UInt8 × List Char :=
  let digits := (text.take 3).takeWhile fun c => '0' ≤ c && c ≤ '7'
  (digits.foldl (fun n c => n * 8 + (c.toNat - 48).toUInt8) 0, text.drop digits.length)

/-- What a backslash before a character and a text stands for, and the rest of the text. A byte may
be written in octal digits, which follow a zero when `zero` is asked for. -/
def escape (zero : Bool) (c : Char) (rest : List Char) : List UInt8 × List Char :=
  match escapes.lookup c with
  | some b => ([b], rest)
  | none =>
    if zero && c == '0' then
      let (b, rest) := octal rest
      ([b], rest)
    else if !zero && '0' ≤ c && c ≤ '7' then
      let (b, rest) := octal (c :: rest)
      ([b], rest)
    else (bytesOf ['\\', c], rest)

/-- A text with the escapes that follow a backslash, and whether it goes on: nothing after the
escape `c` is written. -/
def unescape : (fuel : Nat) → List Char → List UInt8 × Bool
  | 0, _ | _, [] => ([], true)
  | _, '\\' :: 'c' :: _ => ([], false)
  | fuel + 1, '\\' :: c :: rest =>
    let (bytes, rest) := escape true c rest
    let (more, go_on) := unescape fuel rest
    (bytes ++ more, go_on)
  | fuel + 1, c :: rest =>
    let (more, go_on) := unescape fuel rest
    (bytesOf [c] ++ more, go_on)

/-- Writes texts with blanks between them. -/
def echo (args : List String) (s : Shell) : Shell :=
  let (newline, args) :=
    match args with
    | "-n" :: rest => (false, rest)
    | _ => (true, args)
  let text := (String.intercalate " " args).toList
  let (bytes, go_on) := unescape text.length text
  (s.write (bytes ++ (if newline && go_on then [10] else []))).finish 0

/-- A whole number that a text writes. -/
def number (t : String) : Int :=
  match t.toList with
  | '-' :: ds => -(Text.decimalNumber ds : Int)
  | '+' :: ds => Text.decimalNumber ds
  | ds => Text.decimalNumber ds

/-- How an argument of a format is written. -/
structure Field where
  left : Bool := false
  zeros : Bool := false
  sign : Bool := false
  width : Nat := 0
  digits : Option Nat := none
  kind : Char := 's'

/-- Reads what follows a percent sign. -/
def field? (text : List Char) : Option (Field × List Char) :=
  let (marks, rest) := Text.span (fun c => "-0+ #".toList.contains c) text
  let (width, rest) := Text.span Text.isDigit rest
  let (digits, rest) :=
    match rest with
    | '.' :: rest =>
      let (ds, rest) := Text.span Text.isDigit rest
      (some (Text.decimalNumber ds), rest)
    | _ => (none, rest)
  match rest with
  | kind :: rest =>
    some ({ left := marks.contains '-', zeros := marks.contains '0', sign := marks.contains '+'
            width := Text.decimalNumber width, digits, kind }, rest)
  | [] => none

/-- A number in another base. -/
def inBase (base : Nat) (n : Nat) : List Char := Nat.toDigits base n

/-- An argument as a field asks for it. -/
def Field.bytes (f : Field) (arg : String) : List UInt8 :=
  let n := number arg
  let signed (digits : List Char) : List UInt8 :=
    bytesOf (if n < 0 then '-' :: digits else if f.sign then '+' :: digits else digits)
  let body : List UInt8 :=
    if f.kind == 'd' || f.kind == 'i' || f.kind == 'u' then signed (inBase 10 n.natAbs)
    else if f.kind == 'o' then bytesOf (inBase 8 n.natAbs)
    else if f.kind == 'x' then bytesOf (inBase 16 n.natAbs)
    else if f.kind == 'X' then bytesOf ((inBase 16 n.natAbs).map Text.upper)
    else if f.kind == 'c' then (bytesOf arg.toList).take 1
    else
      let all := if f.kind == 'b' then (unescape arg.length arg.toList).1 else bytesOf arg.toList
      match f.digits with
      | some k => all.take k
      | none => all
  let gap := f.width - body.length
  if f.left then body ++ List.replicate gap 32
  else if f.zeros && f.kind != 's' && f.kind != 'c' && f.kind != 'b' then
    let (sign, digits) := (body.takeWhile (· < 48), body.dropWhile (· < 48))
    sign ++ List.replicate gap 48 ++ digits
  else List.replicate gap 32 ++ body

/-- A format filled in once, and the arguments that are left. -/
def formatOnce : (fuel : Nat) → List Char → List String → List UInt8 × List String
  | 0, _, args | _, [], args => ([], args)
  | fuel + 1, '%' :: '%' :: rest, args =>
    let (out, left) := formatOnce fuel rest args
    (37 :: out, left)
  | fuel + 1, '%' :: rest, args =>
    match field? rest with
    | some (f, rest) =>
      let (out, left) := formatOnce fuel rest args.tail
      (f.bytes (args.headD "") ++ out, left)
    | none => ([37], args)
  | fuel + 1, '\\' :: c :: rest, args =>
    let (bytes, rest) := escape false c rest
    let (out, left) := formatOnce fuel rest args
    (bytes ++ out, left)
  | fuel + 1, c :: rest, args =>
    let (out, left) := formatOnce fuel rest args
    (bytesOf [c] ++ out, left)

/-- A format filled in as long as there are arguments. -/
def formatAll (format : List Char) : (fuel : Nat) → List String → List UInt8
  | 0, _ => []
  | fuel + 1, args =>
    let (out, left) := formatOnce format.length format args
    if left.isEmpty || left.length = args.length then out else out ++ formatAll format fuel left

/-- Writes a format with its arguments. -/
def printf (args : List String) (s : Shell) : Shell :=
  let args := if args.head? = some "--" then args.tail else args
  (s.write (formatAll (args.headD "").toList (args.length + 1) args.tail)).finish 0

/-! ### The input -/

/-- The parts of a line for variables: blanks cut it, and the last variable takes the rest. -/
def parts : (names : List String) → List Char → List (String × String)
  | [], _ => []
  | [name], line => [(name, String.ofList (Text.dropTrailing Text.isAsciiBlank line))]
  | name :: names, line =>
    let (word, rest) := Text.span (fun c => !Text.isAsciiBlank c) line
    (name, String.ofList word) :: parts names (rest.dropWhile Text.isAsciiBlank)

/-- Reads a line of the input into variables. At the end of the input there is none. -/
def readLine (args : List String) (s : Shell) : Shell :=
  let isRaw := args.head? = some "-r"
  let names := if isRaw then args.tail else args
  let bytes := s.input.toList.takeWhile (· ≠ 10)
  let rest := s.input.toList.dropWhile (· ≠ 10)
  let line := Text.charsLossy ⟨bytes.toArray⟩
  let line := if isRaw then line else line.filter (· ≠ '\\')
  let found :=
    if s.lookUp? "IFS".toList = some "" then [(names.headD "", String.ofList line)]
    else parts names (line.dropWhile Text.isAsciiBlank)
  let s := found.foldl (fun s (name, value) => s.set name value) s
  { s with input := ⟨(rest.drop 1).toArray⟩, status := if rest.isEmpty then 1 else 0 }

/-- The whole input, which is then empty. -/
def takeInput (s : Shell) : ByteArray × Shell := (s.input, { s with input := .empty })

/-- Why a utility cannot read a file. -/
def readFailure : FileFailure → String
  | .missing => "No such file or directory"
  | e => openFailure e

/-- The content of a file, or of the input for a hyphen. -/
def contentOf (utility path : String) (s : Shell) : ByteArray × Shell :=
  if path = "-" then s.takeInput
  else
    match s.files.read path with
    | .ok bytes => (bytes, s)
    | .error e =>
      (.empty, (s.complain (utility ++ ": " ++ path ++ ": " ++ readFailure e ++ "\n")).finish 1)

/-- The contents of files one after the other, or of the input when there are none. -/
def contents (utility : String) (paths : List String) (s : Shell) : ByteArray × Shell :=
  (if paths.isEmpty then ["-"] else paths).foldl
    (fun (sofar, s) path =>
      let (bytes, s) := contentOf utility path s
      (sofar ++ bytes, s))
    (.empty, s.finish 0)

/-- Writes the input, or files. -/
def cat (args : List String) (s : Shell) : Shell :=
  let (bytes, s) := contents "cat" (args.filter (· ≠ "-u")) s
  s.write bytes.toList

/-- The lines of bytes, each with its line feed. -/
def byteLines (bytes : List UInt8) : List (List UInt8) :=
  bytes.foldr
    (fun b lines =>
      if b = 10 then [10] :: lines
      else
        match lines with
        | (c :: l) :: rest => if l.isEmpty && c = 10 then [b, 10] :: rest else (b :: c :: l) :: rest
        | _ => [[b]])
    []

/-- The number that options such as `-n 3`, `-n3` and `-3` give after a letter, and the paths. -/
def amount (letter : Char) : List String → Option Nat × List String
  | a :: rest =>
    match a.toList, rest with
    | ['-', c], n :: more =>
      if c == letter then (some (number n).toNat, more)
      else if Text.isDigit c && letter == 'n' then (some (Text.decimalNumber [c]), rest)
      else (none, a :: rest)
    | '-' :: c :: ds, rest =>
      if c == letter then (some (Text.decimalNumber ds), rest)
      else if Text.isDigit c && letter == 'n' then (some (Text.decimalNumber (c :: ds)), rest)
      else (none, a :: rest)
    | _, rest => (none, a :: rest)
  | [] => (none, [])

/-- Writes the first or the last lines or bytes. -/
def part (utility : String) (choose : {α : Type} → Nat → List α → List α) (args : List String)
    (s : Shell) : Shell :=
  match amount 'c' args with
  | (some n, paths) =>
    let (bytes, s) := contents utility paths s
    s.write (choose n bytes.toList)
  | (none, _) =>
    let (n, paths) := amount 'n' args
    let (bytes, s) := contents utility paths s
    s.write (choose (n.getD 10) (byteLines bytes.toList)).flatten

/-- The number of words of bytes. -/
def wordCount (bytes : List UInt8) : Nat :=
  (bytes.foldl
    (fun (n, inside) b =>
      let isBlank := b = 32 || (9 ≤ b && b ≤ 13)
      (if !isBlank && !inside then n + 1 else n, !isBlank))
    (0, false)).1

/-- Counts the lines, words or bytes of the input. -/
def count (args : List String) (s : Shell) : Shell :=
  let (options, paths) := (args.filter fun a => Text.startsWith ['-'] a.toList,
    args.filter fun a => !Text.startsWith ['-'] a.toList)
  let (bytes, s) := contents "wc" paths s
  let bytes := bytes.toList
  let asked (c : Char) : Bool := options.any fun o => o.toList.contains c
  let chosen := [('l', bytes.count 10), ('w', wordCount bytes), ('c', bytes.length)].filterMap
    fun (c, n) => if options.isEmpty || asked c then some n else none
  let shown := match chosen with
    | [n] => toString n
    | ns => String.intercalate " " (ns.map fun n => String.ofList (Text.decimalDigits ' ' 7 n))
  let named := if paths.length = 1 then shown ++ " " ++ paths.headD "" else shown
  s.write (named ++ "\n").toUTF8.toList

/-- The bytes of a set of characters, with ranges such as `a-z`. -/
def byteSet : (fuel : Nat) → List UInt8 → List UInt8
  | 0, _ | _, [] => []
  | fuel + 1, a :: 45 :: b :: rest =>
    (List.range (b.toNat + 1 - a.toNat)).map (fun i => a + i.toUInt8) ++ byteSet fuel rest
  | fuel + 1, a :: rest => a :: byteSet fuel rest

/-- The sets of characters that have names. -/
def namedSets : List (String × String) := [
  ("[:lower:]", "a-z"), ("[:upper:]", "A-Z"), ("[:digit:]", "0-9"), ("[:alpha:]", "A-Za-z"),
  ("[:alnum:]", "0-9A-Za-z"), ("[:space:]", "\\t\\n\\v\\f\\r ")]

/-- The bytes of an argument that gives a set. -/
def setOf (arg : String) : List UInt8 :=
  let text := ((namedSets.lookup arg).getD arg).toList
  byteSet (text.length + 1) (unescape text.length text).1

/-- Replaces or drops bytes of the input. -/
def replace (args : List String) (s : Shell) : Shell :=
  let (bytes, s) := s.takeInput
  let new := match args with
    | "-d" :: drop :: _ => bytes.toList.filter fun b => !(setOf drop).contains b
    | source :: target :: _ =>
      let target := setOf target
      let pairs := (setOf source).zipIdx.map fun (b, i) =>
        (b, (target[i]?.or target.getLast?).getD b)
      bytes.toList.map fun b => (pairs.lookup b).getD b
    | _ => bytes.toList
  (s.write new).finish 0

/-- Writes the input to files as well. -/
def tee (args : List String) (s : Shell) : Shell :=
  let append := args.contains "-a"
  let (bytes, s) := s.takeInput
  let s := (args.filter (· ≠ "-a")).foldl
    (fun s path =>
      let before := if append then (s.files.read path).toOption.getD .empty else .empty
      { s with files := (s.files.write path (before ++ bytes)).toOption.getD s.files })
    s
  (s.write bytes.toList).finish 0

/-! ### Files -/

/-- Makes files that are not there. -/
def touch (args : List String) (s : Shell) : Shell :=
  args.foldl
    (fun s path =>
      if (s.files.stat path).isOk then s
      else { s with files := (s.files.write path .empty).toOption.getD s.files })
    (s.finish 0)

/-- Removes files. -/
def remove (args : List String) (s : Shell) : Shell :=
  let (options, paths) := (args.filter fun a => Text.startsWith ['-'] a.toList,
    args.filter fun a => !Text.startsWith ['-'] a.toList)
  let deep := options.any fun o => o.toList.contains 'r'
  let force := options.any fun o => o.toList.contains 'f'
  paths.foldl
    (fun s path =>
      match s.files.stat path with
      | .ok (.file _) => { s with files := (s.files.remove path).toOption.getD s.files }
      | .ok .directory =>
        if deep then { s with files := s.files.removeAll path }
        else (s.complain ("rm: cannot remove '" ++ path ++ "': Is a directory\n")).finish 1
      | .error e =>
        if force then s
        else
          let cause := readFailure e
          (s.complain ("rm: cannot remove '" ++ path ++ "': " ++ cause ++ "\n")).finish 1)
    (s.finish 0)

/-- Makes directories. -/
def makeDirs (args : List String) (s : Shell) : Shell :=
  (args.filter (· ≠ "-p")).foldl (fun s path => { s with files := (s.files.makeDirs path).1 })
    (s.finish 0)

/-! ### Tests and the rest -/

/-- The outcome of a test of one thing. -/
def passes (s : Shell) : List String → Bool
  | "!" :: rest => !s.passes rest
  | [t] => t ≠ ""
  | ["-n", t] => t ≠ ""
  | ["-z", t] => t = ""
  | ["-e", t] => (s.files.stat t).isOk
  | ["-f", t] | ["-r", t] | ["-w", t] | ["-x", t] => (s.files.read t).isOk
  | ["-s", t] => ((s.files.read t).toOption.getD .empty).size > 0
  | ["-d", t] => (s.files.list t).isOk
  | [a, "=", b] => a = b
  | [a, "!=", b] => a ≠ b
  | [a, "-eq", b] => number a = number b
  | [a, "-ne", b] => number a ≠ number b
  | [a, "-lt", b] => number a < number b
  | [a, "-le", b] => number a ≤ number b
  | [a, "-gt", b] => number a > number b
  | [a, "-ge", b] => number a ≥ number b
  | _ => false

/-- The stretches of a list between items. -/
def between (item : String) : List String → List (List String)
  | [] => [[]]
  | a :: rest =>
    match between item rest with
    | first :: others => if a = item then [] :: first :: others else (a :: first) :: others
    | [] => [[a]]

/-- The outcome of a test. More than three words may be joined tests. -/
def holds (s : Shell) (args : List String) : Bool :=
  if args.length ≤ 3 then s.passes args
  else (between "-o" args).any fun part => (between "-a" part).all s.passes

/-- Writes the numbers from one to another. -/
def sequence (args : List String) (s : Shell) : Shell :=
  let (first, last) := match args.map number with
    | [n] => (1, n)
    | a :: b :: _ => (a, b)
    | [] => (1, 0)
  let numbers := (List.range (last + 1 - first).toNat).map fun (i : Nat) => first + (i : Int)
  (s.write (String.join (numbers.map fun n => toString n ++ "\n")).toUTF8.toList).finish 0

/-- Writes a line. -/
def say (line : String) (s : Shell) : Shell := (s.write (line ++ "\n").toUTF8.toList).finish 0

/-- A utility by its name. -/
def utility? (name : String) (args : List String) : Option (Shell → Shell) :=
  match name with
  | "echo" => some (echo args)
  | "printf" => some (printf args)
  | "read" => some (readLine args)
  | "cat" => some (cat args)
  | "head" => some (part "head" (fun n l => l.take n) args)
  | "tail" => some (part "tail" (fun n l => l.drop (l.length - n)) args)
  | "wc" => some (count args)
  | "tr" => some (replace args)
  | "tee" => some (tee args)
  | "touch" => some (touch args)
  | "rm" => some (remove args)
  | "mkdir" => some (makeDirs args)
  | "seq" => some (sequence args)
  | "basename" => some (say (String.ofList (Path.baseChars (args.headD ""))))
  | "dirname" => some (say (Path.dir (args.headD "")))
  | "true" | ":" | "sleep" | "export" | "readonly" | "trap" | "umask" | "wait" => some (finish 0)
  | "false" => some (finish 1)
  | "test" => some fun s => s.finish (if s.holds args then 0 else 1)
  | "[" => some fun s => s.finish (if s.holds args.dropLast then 0 else 1)
  | _ => none

end Shell
end Tool
end ApiDiagrams
