import ApiDiagrams.Text.Ascii

/-!
# The range of floating point numbers

File formats refuse a decimal number that is too large for a double. Nothing else about such numbers
matters here.

* `Double.holds`: the number rounds to a finite double;
* `Double.exponent?`: the exponent behind the digits of a number.
-/

namespace ApiDiagrams
namespace Double

/-- The least whole number that rounds to infinity. -/
def limit : Nat := Nat.pow 2 1024 - Nat.pow 2 970

/-- The number `digits · 10 ^ exponent` rounds to a finite double. -/
def holds (digits : List Char) (exponent : Int) : Bool :=
  let significant := digits.dropWhile (· == '0')
  let size := (significant.length : Int) + exponent
  if significant.isEmpty || size < 300 then true
  else if size > 310 then false
  else
    let n := Text.decimalNumber significant
    if exponent ≥ 0 then n * Nat.pow 10 exponent.toNat < limit
    else n < limit * Nat.pow 10 (-exponent).toNat

/-- The exponent that a text consists of, zero when the text is empty. -/
def exponent? : List Char → Option Int
  | [] => some 0
  | e :: rest =>
    if e != 'e' && e != 'E' then none
    else
      let (negative, ds) :=
        match rest with
        | '-' :: ds => (true, ds)
        | '+' :: ds => (false, ds)
        | ds => (false, ds)
      if ds.isEmpty || !ds.all Text.isDigit then none
      else
        let n : Int := Text.decimalNumber ds
        some (if negative then -n else n)

/-- The text is a decimal number without a sign that rounds to a finite double: digits, possibly
with a point before, between or after them, and possibly an exponent. -/
def reads (text : List Char) : Bool :=
  let (whole, rest) := Text.span Text.isDigit text
  let (fraction, rest) :=
    match rest with
    | '.' :: rest => Text.span Text.isDigit rest
    | _ => ([], rest)
  !(whole.isEmpty && fraction.isEmpty) &&
    match exponent? rest with
    | some e => holds (whole ++ fraction) (e - fraction.length)
    | none => false

end Double
end ApiDiagrams
