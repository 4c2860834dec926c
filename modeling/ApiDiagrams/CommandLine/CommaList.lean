import ApiDiagrams.Text.Ascii

/-!
# Lists with commas

A list on the command line is one record of fields with commas between them. A field in double
quotes may hold commas and line ends, and a quote when it is written twice.

* `CommaList.parse`: the fields of the first record of a text.
-/

namespace ApiDiagrams
namespace CommandLine
namespace CommaList

/-- Why a text is no list. -/
inductive Malformed
  /-- There is no record. -/
  | nothing
  /-- A quote inside a field that does not start with one. -/
  | bareQuote (firstLine line column : Nat)
  /-- A quoted field without its closing quote, or with text after it. -/
  | badQuote (firstLine line column : Nat)
  deriving DecidableEq, Repr

/-- What is wrong, in words. -/
def Malformed.text : Malformed → String
  | .nothing => "EOF"
  | .bareQuote first line column => place first line column ++ "bare \" in non-quoted-field"
  | .badQuote first line column =>
    place first line column ++ "extraneous or missing \" in quoted-field"
where
  /-- Where it is wrong. -/
  place (first line column : Nat) : String :=
    (if first = line then "" else "record on line " ++ toString first ++ "; ") ++
      "parse error on line " ++ toString line ++ ", column " ++ toString column ++ ": "

/-- A line without a carriage return before its end. -/
def normalLine (line : List Char) : List Char :=
  match line.reverse with
  | '\n' :: '\r' :: rest => ('\n' :: rest).reverse
  | '\r' :: rest => rest.reverse
  | _ => line

/-- The lines of a text, each with its line feed. -/
def lines (text : List Char) : List (List Char) :=
  let parts := Text.splitOn '\n' text
  let full := parts.dropLast.map (· ++ ['\n'])
  let last := parts.getLastD []
  (if last.isEmpty then full else full ++ [last]).map normalLine

/-- What is left to read: the rest of a line, the lines after it, the numbers of the line and of
the column. -/
structure Position where
  rest : List Char
  later : List (List Char)
  line : Nat
  column : Nat

/-- The line without its line feed. -/
def withoutEnd (line : List Char) : List Char := Text.dropTrailing (· == '\n') line

mutual

/-- The fields from a position on. -/
def fields (first : Nat) : (fuel : Nat) → Position → Except Malformed (List (List Char))
  | 0, _ => .error .nothing
  | fuel + 1, p =>
    match p.rest with
    | '"' :: rest => quoted first fuel [] { p with rest, column := p.column + 1 }
    | _ =>
      let (field, after) :=
        match Text.cutAt ',' p.rest with
        | some (field, after) => (field, some after)
        | none => (withoutEnd p.rest, none)
      if field.contains '"' then
        let before := field.takeWhile (· ≠ '"')
        .error (.bareQuote first p.line (p.column + Text.byteLength before))
      else
        match after with
        | none => .ok [field]
        | some rest => do
          let column := p.column + Text.byteLength field + 1
          return field :: (← fields first fuel { p with rest, column })

/-- The fields from inside a quoted field on; `sofar` was read of it. -/
def quoted (first : Nat) : (fuel : Nat) → (sofar : List Char) → Position →
    Except Malformed (List (List Char))
  | 0, _, _ => .error .nothing
  | fuel + 1, sofar, p =>
    match Text.cutAt '"' p.rest with
    | some (inside, after) =>
      let sofar := sofar ++ inside
      let column := p.column + Text.byteLength inside + 1
      match after with
      | '"' :: rest => quoted first fuel (sofar ++ ['"']) { p with rest, column := column + 1 }
      | ',' :: rest => do
        return sofar :: (← fields first fuel { p with rest, column := column + 1 })
      | rest =>
        if rest = [] || rest = ['\n'] then .ok [sofar]
        else .error (.badQuote first p.line (column - 1))
    | none =>
      let column := p.column + Text.byteLength p.rest
      match p.later with
      | [] | [] :: _ => .error (.badQuote first p.line column)
      | next :: later =>
        quoted first fuel (sofar ++ p.rest)
          { rest := next, later, line := p.line + 1, column := 1 }

end

/-- The fields of the first record of a text. An empty text has no fields. -/
def parse (text : String) : Except Malformed (List String) :=
  if text = "" then .ok []
  else
    let all := lines text.toList
    let blank := all.takeWhile fun l => l == ['\n'] || l == []
    match all.drop blank.length with
    | [] => .error .nothing
    | rest :: later =>
      let line := blank.length + 1
      (fields line (2 * text.length + 2) { rest, later, line, column := 1 }).map
        (·.map String.ofList)

end CommaList
end CommandLine
end ApiDiagrams
