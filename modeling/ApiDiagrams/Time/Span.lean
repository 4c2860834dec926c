import ApiDiagrams.Data.Word
import ApiDiagrams.Time.Calendar

/-!
# Lengths of time

A length of time is a number of nanoseconds in a 64-bit word, written as numbers with units such as
`1h30m` or `1.5s`.

* `Span.parse?`: reading; `Span.text`: writing;
* `Span.round`: the nearest multiple of a unit.
-/

namespace ApiDiagrams
namespace Time
namespace Span

/-- The nanoseconds of a unit. -/
def unit? : List Char → Option Nat
  | ['n', 's'] => some 1
  | ['u', 's'] | ['µ', 's'] | ['μ', 's'] => some 1000
  | ['m', 's'] => some 1000000
  | ['s'] => some 1000000000
  | ['m'] => some 60000000000
  | ['h'] => some 3600000000000
  | _ => none

/-- A character of a number. -/
def isNumeric (c : Char) : Bool := Text.isDigit c || c == '.'

/-- The digits of a fraction that count: those that fit a 64-bit word together. -/
def countedDigits : (sofar : Nat) → List Char → List Char
  | _, [] => []
  | n, d :: ds =>
    let m := n * 10 + (d.toNat - 48)
    if n > (Word.half - 1) / 10 || m > Word.half then [] else d :: countedDigits m ds

/-- The whole nanoseconds of a fraction of a unit, in double precision. -/
def fractionOf (unit : Nat) (digits : List Char) : Nat :=
  let ds := countedDigits 0 digits
  let scale := ds.foldl (fun (s : Float) _ => s * 10) 1
  ((Text.decimalNumber ds).toFloat * (unit.toFloat / scale)).toUInt64.toNat

/-- One number with its unit at the front, and the rest. -/
def term? (text : List Char) : Option (Nat × List Char) := do
  let (whole, rest) := Text.span Text.isDigit text
  let (fraction, rest) :=
    match rest with
    | '.' :: rest => Text.span Text.isDigit rest
    | _ => ([], rest)
  if whole.isEmpty && fraction.isEmpty then none
  let (name, rest) := Text.span (fun c => !isNumeric c) rest
  let unit ← unit? name
  let n := Text.decimalNumber whole
  if n * unit > Word.half then none
  let total := n * unit + (if Text.decimalNumber fraction = 0 then 0 else fractionOf unit fraction)
  if total > Word.half then none else some (total, rest)

/-- The sum of all terms of a text. -/
def terms? : (fuel : Nat) → List Char → Option Nat
  | _, [] => some 0
  | 0, _ => none
  | fuel + 1, text => do
    let (n, rest) ← term? text
    let total := n + (← terms? fuel rest)
    if total > Word.half then none else some total

/-- The length of time that a text writes. -/
def parse? (s : String) : Option Int := do
  let text := s.toList
  let (negative, body) :=
    match text with
    | '-' :: rest => (true, rest)
    | '+' :: rest => (false, rest)
    | _ => (false, text)
  if body == ['0'] then some 0
  else if body.isEmpty then none
  else
    let n ← terms? body.length body
    if negative then some (-(n : Int))
    else if n > Word.half - 1 then none
    else some n

/-- The shortest length of time. -/
def least : Int := -Word.half

/-- The longest length of time. -/
def greatest : Int := Word.half - 1

/-- The nearest multiple of a unit, a half going away from zero. -/
def round (unit : Nat) (d : Int) : Int :=
  let n := d.natAbs
  let r := n % unit
  let rounded : Int := if 2 * r < unit then n - r else n + unit - r
  if d < 0 then max least (-rounded) else min greatest rounded

/-- A number of `places` decimal places without the zeros at its end. -/
def decimal (places n : Nat) : List Char :=
  let digits := Text.decimalDigits '0' places (n % Nat.pow 10 places)
  let fraction := Text.dropTrailing (· == '0') digits
  Nat.toDigits 10 (n / Nat.pow 10 places) ++ (if fraction.isEmpty then [] else '.' :: fraction)

/-- A length below a second, in the greatest unit that gives a whole part. -/
def shortText (n : Nat) : List Char :=
  if n = 0 then ['0', 's']
  else if n < 1000 then decimal 0 n ++ ['n', 's']
  else if n < 1000000 then decimal 3 n ++ ['µ', 's']
  else decimal 6 n ++ ['m', 's']

/-- A length of a second or more: hours and minutes as far as needed, and seconds. -/
def longText (n : Nat) : List Char :=
  let minutes := n / 60000000000
  let hours := minutes / 60
  (if hours = 0 then [] else Nat.toDigits 10 hours ++ ['h']) ++
    (if minutes = 0 then [] else Nat.toDigits 10 (minutes % 60) ++ ['m']) ++
    decimal 9 (n % 60000000000) ++ ['s']

/-- The text of a length of time. -/
def text (d : Int) : String :=
  let n := d.natAbs
  let body := if n < 1000000000 then shortText n else longText n
  String.ofList (if d < 0 then '-' :: body else body)

end Span
end Time
end ApiDiagrams
