import ApiDiagrams.Text.Ascii

/-!
# Dates

* `daysOfMonth`: the length of a month;
* `daysBefore`: the number of days between the start of the year 0 and a date;
* `date?`: a date such as `2006-01-02` at the front of a text.
-/

namespace ApiDiagrams
namespace Time

/-- A year with a leap day. -/
def isLeap (year : Nat) : Bool := year % 4 == 0 && (year % 100 != 0 || year % 400 == 0)

/-- The number of days of a month. -/
def daysOfMonth (year month : Nat) : Nat :=
  if month == 2 then if isLeap year then 29 else 28
  else if month == 4 || month == 6 || month == 9 || month == 11 then 30
  else 31

/-- The number of days of the years before a year. -/
def daysBeforeYear (year : Nat) : Nat :=
  365 * year + (year + 3) / 4 - (year + 99) / 100 + (year + 399) / 400

/-- The number of days between the start of the year 0 and a date. -/
def daysBefore (year month day : Nat) : Nat :=
  daysBeforeYear year +
    ((List.range (month - 1)).map fun m => daysOfMonth year (m + 1)).foldl (· + ·) 0 + (day - 1)

/-- The number of exactly `width` digits at the front, and the rest. -/
def digits? (width : Nat) (text : List Char) : Option (Nat × List Char) :=
  let ds := text.take width
  if ds.length == width && ds.all Text.isDigit then some (Text.decimalNumber ds, text.drop width)
  else none

/-- The text after a character that must stand at the front. -/
def after? (c : Char) : List Char → Option (List Char)
  | d :: rest => if d == c then some rest else none
  | [] => none

/-- A date at the front, as the number of days since the start of the year 0, and the rest. -/
def date? (text : List Char) : Option (Nat × List Char) := do
  let (year, rest) ← digits? 4 text
  let rest ← after? '-' rest
  let (month, rest) ← digits? 2 rest
  let rest ← after? '-' rest
  let (day, rest) ← digits? 2 rest
  if 1 ≤ month && month ≤ 12 && 1 ≤ day && day ≤ daysOfMonth year month then
    some (daysBefore year month day, rest)
  else none

end Time
end ApiDiagrams
