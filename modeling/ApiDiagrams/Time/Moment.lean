import ApiDiagrams.Time.Calendar

/-!
# Moments

A moment is a number of nanoseconds since the start of 1970, written as a date with a time of day
and a zone.

* `clock?`, `zone?`: a time of day and a zone at the front of a text;
* `Moment.parse?`, `Moment.text`: reading and writing; `Moment.isWritable`: what can be written;
* `Moment.zero`: the moment that stands for none.
-/

namespace ApiDiagrams
namespace Time

/-- The nanoseconds of a second. -/
def second : Nat := 1000000000

/-- The fraction of a second at the front in nanoseconds, zero when there is none. -/
def fraction (text : List Char) : Nat × List Char :=
  match text with
  | mark :: d :: rest =>
    if (mark == '.' || mark == ',') && Text.isDigit d then
      let (ds, rest) := Text.span Text.isDigit (d :: rest)
      let kept := ds.take 9
      (Text.decimalNumber kept * Nat.pow 10 (9 - kept.length), rest)
    else (0, text)
  | _ => (0, text)

/-- The hour at the front: two digits, or one. -/
def hour? (text : List Char) : Option (Nat × List Char) := (digits? 2 text).or (digits? 1 text)

/-- A time of day at the front in nanoseconds, and the rest. -/
def clock? (text : List Char) : Option (Nat × List Char) := do
  let (h, rest) ← hour? text
  let rest ← after? ':' rest
  let (m, rest) ← digits? 2 rest
  let rest ← after? ':' rest
  let (s, rest) ← digits? 2 rest
  let (f, rest) := fraction rest
  if h < 24 && m < 60 && s < 60 then some (((h * 60 + m) * 60 + s) * second + f, rest) else none

/-- A zone at the front as its distance in seconds, and the rest. -/
def zone? : List Char → Option (Int × List Char)
  | 'Z' :: rest => some (0, rest)
  | sign :: rest => do
    if sign != '+' && sign != '-' then none
    let (h, rest) ← digits? 2 rest
    let rest ← after? ':' rest
    let (m, rest) ← digits? 2 rest
    if h ≤ 24 && m ≤ 60 then
      let seconds : Int := ((h * 60 + m) * 60 : Nat)
      some (if sign == '-' then -seconds else seconds, rest)
    else none
  | [] => none

namespace Moment

/-- The days between the start of the year 0 and the start of 1970. -/
def epochDay : Nat := 719528

/-- The start of the year 1, which stands for no moment. -/
def zero : Int := ((daysBefore 1 1 1 : Int) - epochDay) * 86400 * second

/-- The moment that a text such as `2006-01-02T15:04:05Z` names. -/
def parse? (text : List Char) : Option Int := do
  let (days, rest) ← date? text
  let rest ← after? 'T' rest
  let (time, rest) ← clock? rest
  let (offset, rest) ← zone? rest
  if rest.isEmpty then
    some (((days : Int) - epochDay) * 86400 * second + time - offset * second)
  else none

/-- The year of a day, searched from the year that the average length suggests. -/
def yearOfDay (day : Nat) : Nat :=
  let guess := day / 366
  (List.range 30).foldl (fun y _ => if daysBeforeYear (y + 1) ≤ day then y + 1 else y) guess

/-- The month and the day of the month of a day of a year. -/
def monthOfDay (year : Nat) : (fuel month day : Nat) → Nat × Nat
  | 0, month, day => (month, day + 1)
  | fuel + 1, month, day =>
    let size := daysOfMonth year month
    if day < size then (month, day + 1) else monthOfDay year fuel (month + 1) (day - size)

/-- The fraction of a second with its point, empty for a whole second. -/
def fractionText (nanos : Nat) : List Char :=
  if nanos == 0 then []
  else '.' :: Text.dropTrailing (· == '0') (Text.decimalDigits '0' 9 nanos)

/-- Only moments of the years 0 to 9999 can be written. -/
def isWritable (moment : Int) : Bool :=
  let day := moment / (86400 * second : Nat) + epochDay
  0 ≤ day && day < daysBeforeYear 10000

/-- A moment of the years 0 to 9999 as text. -/
def text (moment : Int) : List Char :=
  let day := (moment / (86400 * second : Nat) + epochDay).toNat
  let time := (moment % (86400 * second : Nat)).toNat
  let year := yearOfDay day
  let (month, dayOfMonth) := monthOfDay year 12 1 (day - daysBeforeYear year)
  let two (n : Nat) := Text.decimalDigits '0' 2 n
  let seconds := time / second
  Text.decimalDigits '0' 4 year ++ '-' :: two month ++ '-' :: two dayOfMonth ++ 'T' ::
    two (seconds / 3600) ++ ':' :: two (seconds / 60 % 60) ++ ':' :: two (seconds % 60) ++
    fractionText (time % second) ++ ['Z']

end Moment
end Time
end ApiDiagrams
