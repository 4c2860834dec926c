import ApiDiagrams.Display.Tracker

/-!
# The progress bar

* `Bar`: what the bar shows;
* `Bar.cells`: the bar itself;
* `Bar.view`: the bar with its timing and its message.
-/

namespace ApiDiagrams
namespace Display

/-- What a progress bar shows. -/
structure Bar where
  /-- The share of the work that is done. -/
  share : Float := 0
  message : String := ""
  isDone : Bool := false

namespace Bar

/-- The columns of the bar. -/
def columns : Nat := 40

/-- The bar with a number of filled columns; the others are empty. -/
def cells (filled : Nat) : List Char :=
  List.replicate filled '█' ++ List.replicate (columns - filled) '░'

/-- Shows another share and message. -/
def update (b : Bar) (share : Float) (message : String) : Bar := { b with share, message }

/-- Shows that all is done. -/
def finish (b : Bar) : Bar := { b with isDone := true, share := 1 }

/-- A number of nanoseconds in double precision as a length of time; one that is too long wraps to
the least one. -/
def toSpan (x : Float) : Int :=
  if x.abs < 9223372036854775808 then x.toInt64.toInt else Time.Span.least

/-- The time that is left, when the rest goes on as before. -/
def remaining (b : Bar) (elapsed : Int) : Int :=
  toSpan (Float.ofInt elapsed * (1 - b.share) / b.share)

/-- The time that passed, and the time that is left while that can be told. -/
def timing (b : Bar) (elapsed : Int) : String :=
  "elapsed " ++ duration elapsed ++
    (if 0 < b.share && b.share < 1 then ", ~" ++ duration (b.remaining elapsed) ++ " left" else "")

/-- The bar after a time, with its message until all is done. -/
def view (b : Bar) (elapsed : Int) : String :=
  let filled := (b.share * columns.toFloat).toUInt64.toNat
  let line := String.ofList (cells filled ++ ' ' :: Tracker.percentText b.share) ++ " " ++
    b.timing elapsed
  let message := if b.message = "" || b.isDone then "" else
    "\n" ++ Block.even (truncate (columns + 20) b.message)
  line ++ message ++ "\n"

end Bar
end Display
end ApiDiagrams
