import ApiDiagrams.Index

/-!
# Path patterns

Targets may be patterns over names, with dots read as slashes. Inside a segment `*` stands for any
run of characters, `?` for one character, `[a-z]` for one of a class (`[!a-z]` or `[^a-z]` for one
outside it), and `{one,other}` for either of its alternatives. A segment `**` stands for any number
of segments. A backslash takes the next character literally.

* `Glob.isValid`: the brackets and braces of a pattern are closed;
* `Glob.accepts`: a pattern accepts a path;
* `Glob.rule`: the two together.
-/

namespace ApiDiagrams
namespace Glob

/-- Skips the rest of a class, after its first member, up to the closing bracket. -/
def skipClass : List Char → Option (List Char)
  | [] => none
  | '\\' :: _ :: rest => skipClass rest
  | ['\\'] => none
  | ']' :: rest => some rest
  | _ :: rest => skipClass rest

/-- Skips a class after its opening bracket; the class must have a member. -/
def skipWholeClass (pattern : List Char) : Option (List Char) :=
  let body :=
    match pattern with
    | '^' :: rest | '!' :: rest => rest
    | _ => pattern
  match body with
  | [] | ']' :: _ => none
  | _ => skipClass body

/-- The pattern is well formed, when `depth` braces are open; `fuel` bounds the steps. -/
def isValidFrom : (fuel depth : Nat) → List Char → Bool
  | 0, _, _ => false
  | _ + 1, depth, [] => depth == 0
  | fuel + 1, depth, c :: rest =>
    match c with
    | '\\' =>
      match rest with
      | [] => false
      | _ :: rest => isValidFrom fuel depth rest
    | '[' =>
      match skipWholeClass rest with
      | none => false
      | some rest => isValidFrom fuel depth rest
    | '\x7b' => isValidFrom fuel (depth + 1) rest
    | '\x7d' => if depth == 0 then false else isValidFrom fuel (depth - 1) rest
    | _ => isValidFrom fuel depth rest

/-- The brackets and braces of the pattern are closed, and no escape ends it. -/
def isWellFormed (pattern : List Char) : Bool := isValidFrom (pattern.length + 1) 0 pattern

/-- The brackets and braces of the pattern are closed, and no escape ends it. -/
def isValid (pattern : String) : Bool := isWellFormed pattern.toList

/-- The answer when the pattern cannot go on with `rest`: no, but none at all if the rest is ill
formed. Cutting a pattern at its braces can leave such rests. -/
def giveUp (rest : List Char) : Option Bool := if isWellFormed rest then some false else none

/-- The first answer other than no. -/
def firstAnswer {α : Type} (ask : α → Option Bool) : List α → Option Bool
  | [] => some false
  | a :: rest =>
    match ask a with
    | some false => firstAnswer ask rest
    | answer => answer

/-- The number of characters before the brace that closes the one just opened. -/
def closingBrace : (depth passed : Nat) → List Char → Option Nat
  | _, _, [] => none
  | _, _, ['\\'] => none
  | depth, k, '\\' :: _ :: rest => closingBrace depth (k + 2) rest
  | depth, k, '\x7b' :: rest => closingBrace (depth + 1) (k + 1) rest
  | depth, k, '\x7d' :: rest => if depth ≤ 1 then some k else closingBrace (depth - 1) (k + 1) rest
  | depth, k, _ :: rest => closingBrace depth (k + 1) rest

/-- The alternatives between a pair of braces: the text cut at the commas outside inner braces. The
accumulator holds the current alternative, last character first. -/
def alternatives : (depth : Nat) → (current : List Char) → List Char → List (List Char)
  | _, current, [] => [current.reverse]
  | _, current, ['\\'] => [('\\' :: current).reverse]
  | depth, current, '\\' :: c :: rest => alternatives depth (c :: '\\' :: current) rest
  | depth, current, c :: rest =>
    if c = '\x7b' then alternatives (depth + 1) (c :: current) rest
    else if c = '\x7d' then alternatives (depth - 1) (c :: current) rest
    else if c = ',' && depth == 1 then current.reverse :: alternatives depth [] rest
    else alternatives depth (c :: current) rest

/-- The alternatives at the front of a pattern, after the opening brace, and what follows the
closing one. -/
def splitAlternatives (pattern : List Char) : Option (List (List Char) × List Char) :=
  (closingBrace 1 0 pattern).map fun k =>
    (alternatives 1 [] (pattern.take k), pattern.drop (k + 1))

/-- Reads the members of a class until one of them is `c`. The result says whether one was, and
what follows it. `last` is the member before, if a range may start there. -/
def classMember (c : Char) : (fuel : Nat) → (last : Option Char) → List Char → Bool × List Char
  | 0, _, pattern => (false, pattern)
  | _ + 1, _, [] => (false, [])
  | _ + 1, _, ']' :: rest => (false, ']' :: rest)
  | fuel + 1, last, p :: rest =>
    let single : Bool × List Char :=
      let (q, rest) :=
        match p, rest with
        | '\\', e :: rest => (e, rest)
        | _, _ => (p, rest)
      if q == c then (true, rest) else classMember c fuel (some q) rest
    match last, p, rest with
    | some low, '-', r :: more =>
      if r = ']' then single
      else
        let (high, more) :=
          match r, more with
          | '\\', e :: more => (e, more)
          | _, _ => (r, more)
        if low ≤ c && c ≤ high then (true, more) else classMember c fuel none more
    | _, _, _ => single

/-- What a class says of a character. -/
inductive ClassAnswer
  /-- The class is not closed, or has no member. -/
  | illFormed
  /-- The class refuses; `rest` is the pattern where that was known. -/
  | refuses (rest : List Char)
  /-- The class accepts; `after` is the pattern behind it. -/
  | accepts (after : List Char)

/-- Asks the class after an opening bracket for a character. -/
def askClass (c : Char) (pattern : List Char) : ClassAnswer :=
  let (negated, body) :=
    match pattern with
    | '!' :: rest | '^' :: rest => (true, rest)
    | _ => (false, pattern)
  match body with
  | [] | ']' :: _ => .illFormed
  | _ =>
    match classMember c (body.length + 1) none body with
    | (found, rest) =>
      if found == negated then if rest.isEmpty then .illFormed else .refuses rest
      else
        match skipClass rest with
        | some after => .accepts after
        | none => .illFormed

/-- The pattern accepts the end of a path. -/
def acceptsEnd : (fuel : Nat) → List Char → Option Bool
  | 0, _ => none
  | fuel + 1, pattern =>
    if pattern = [] || pattern = ['*'] || pattern = ['*', '*'] || pattern = ['/', '*', '*'] ||
        pattern = ['*', '*', '/'] || pattern = ['/', '*', '*', '/'] then some true
    else
      match pattern with
      | '\x7b' :: rest =>
        match splitAlternatives rest with
        | some (alts, after) => firstAnswer (fun alt => acceptsEnd fuel (alt ++ after)) alts
        | none => none
      | _ => giveUp pattern

/-- A place to go back to: a number of pattern characters already used, and the path from there. -/
structure Mark where
  used : Nat
  path : List Char

/-- What follows the first slash. -/
def afterSlash : List Char → Option (List Char)
  | [] => none
  | c :: rest => if c = '/' then some rest else afterSlash rest

/-- Matches the pattern, of which `used` characters are done, with the rest of a path. `starMark`
and `deepMark` say where the last `*` and the last `**` may take more of the path; `atStart` says
that a segment starts here. There is no answer when what is left of the pattern is ill formed. -/
def run : (fuel : Nat) → (pattern : List Char) → (used : Nat) → (path : List Char) →
    (atStart : Bool) → (starMark deepMark : Option Mark) → Option Bool
  | 0, _, _, _, _, _, _ => none
  | fuel + 1, pattern, used, [], _, _, _ => acceptsEnd (fuel + 1) (pattern.drop used)
  | fuel + 1, pattern, used, c :: path, atStart, starMark, deepMark =>
    let goBack (left : List Char) : Option Bool :=
      let deep : Option Bool :=
        match deepMark with
        | some mark =>
          match afterSlash mark.path with
          | some rest => run fuel pattern mark.used rest true starMark (some ⟨mark.used, rest⟩)
          | none => giveUp left
        | none => giveUp left
      match starMark with
      | some ⟨from_, d :: rest⟩ =>
        if d = '/' then deep
        else run fuel pattern from_ rest false (some ⟨from_, rest⟩) deepMark
      | _ => deep
    let star (used : Nat) : Option Bool :=
      run fuel pattern used (c :: path) false (some ⟨used, c :: path⟩) deepMark
    let left := pattern.drop used
    match left with
    | '*' :: '*' :: rest =>
      if atStart then
        match rest with
        | [] => some true
        | '/' :: _ => run fuel pattern (used + 3) (c :: path) true none (some ⟨used + 3, c :: path⟩)
        | _ => star (used + 2)
      else star (used + 2)
    | '*' :: _ => star (used + 1)
    | '?' :: _ =>
      if c = '/' then goBack left
      else run fuel pattern (used + 1) path false starMark deepMark
    | '[' :: rest =>
      match askClass c rest with
      | .illFormed => none
      | .refuses rest => goBack rest
      | .accepts after =>
        run fuel pattern (pattern.length - after.length) path false starMark deepMark
    | '\x7b' :: rest =>
      match splitAlternatives rest with
      | some (alts, after) =>
        firstAnswer
          (fun alt =>
            run fuel (pattern.take used ++ alt ++ after) used (c :: path) true starMark deepMark)
          alts
      | none => none
    | '\\' :: d :: _ =>
      if c = d then run fuel pattern (used + 2) path (d = '/') starMark deepMark else goBack left
    | ['\\'] => none
    | d :: _ =>
      if c = d then run fuel pattern (used + 1) path (d = '/') starMark deepMark
      else if used > 0 && pattern[used - 1]? == some '\\' then goBack ('\\' :: left)
      else goBack left
    | [] => goBack []

/-- The pattern accepts the path. -/
def accepts (pattern path : String) : Bool :=
  let n := path.length + 2
  let m := pattern.length + 2
  run (n * n * m * m) pattern.toList 0 path.toList true none none == some true

/-- Path patterns as a rule for selecting entities. -/
def rule : PatternRule := ⟨isValid, accepts⟩

end Glob
end ApiDiagrams
