import ApiDiagrams.Text.Quoted

/-!
# Log records

* `Log.Level`: how grave a record is, and which level a verbosity asks for;
* `Log.Record`: a message with named values, and its line.
-/

namespace ApiDiagrams
namespace Log

/-- How grave a record is. -/
inductive Level
  | debug
  | info
  | warn
  | error
  | fatal
  deriving DecidableEq, Repr, Inhabited

namespace Level

/-- The word for a level. -/
def text : Level → String
  | .debug => "debug"
  | .info => "info"
  | .warn => "warn"
  | .error => "error"
  | .fatal => "fatal"

/-- The rank of a level, graver ones higher. -/
def rank : Level → Nat
  | .debug => 0
  | .info => 1
  | .warn => 2
  | .error => 3
  | .fatal => 4

/-- The level for a verbosity, the number of times that more output was asked for minus the number
of times that less was. -/
def ofVerbosity (verbosity : Int) (debug : Bool) : Level :=
  if debug then .debug
  else if verbosity ≤ -3 then .fatal
  else if verbosity = -2 then .error
  else if verbosity ≥ 3 then .info
  else .warn

end Level

/-- A value of a record. -/
inductive Value
  | text (s : String)
  | number (n : Int)
  deriving DecidableEq, Repr, Inhabited

/-- A message with named values. -/
structure Record where
  level : Level
  message : String
  fields : List (String × Value) := []
  deriving DecidableEq, Repr, Inhabited

/-- The record is shown at a level. -/
def Record.isShown (r : Record) (level : Level) : Bool := level.rank ≤ r.level.rank

/-- The text of a value. -/
def Value.shown : Value → String
  | .text s => Text.quote s
  | .number n => toString n

/-- The line of a record. -/
def Record.line (r : Record) : String :=
  r.level.text ++ ": " ++ r.message ++
    String.join (r.fields.map fun (key, v) => " " ++ key ++ "=" ++ v.shown)

end Log
end ApiDiagrams
