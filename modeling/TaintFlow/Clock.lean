/-
  TaintFlow.Clock
  ───────────────
  What a run of the program knows of time: when it takes place and how long a scan took.
-/
import TaintFlow.Data.Timestamp

namespace TaintFlow

/-- The present moment, and the seconds that a scan takes. -/
structure Clock where
  year : Nat
  month : Nat
  day : Nat
  hour : Nat
  minute : Nat
  second : Nat
  microsecond : Nat
  elapsed : Binary64
  deriving DecidableEq, Repr

namespace Clock

/-- The date as in `2024-01-02`, with the given text between its parts. -/
def dateText (c : Clock) (between : String) : String :=
  Text.joinWith between [Binary64.padded 4 c.year, Binary64.padded 2 c.month, Binary64.padded 2 c.day]

/-- The time of day as in `03:04:05`, with the given text between its parts. -/
def timeText (c : Clock) (between : String) : String :=
  Text.joinWith between [Binary64.padded 2 c.hour, Binary64.padded 2 c.minute, Binary64.padded 2 c.second]

/-- The moment as in `2024-01-02T03:04:05`, with the fraction of the second if there is one. -/
def isoText (c : Clock) : String :=
  let fraction := if c.microsecond = 0 then "" else "." ++ Binary64.padded 6 c.microsecond
  c.dateText "-" ++ "T" ++ c.timeText ":" ++ fraction

/-- The moment as in `2024-01-02 03:04:05`. -/
def plainText (c : Clock) : String := c.dateText "-" ++ " " ++ c.timeText ":"

/-- The moment as in `20240102_030405`, for the names of files. -/
def stampText (c : Clock) : String := c.dateText "" ++ "_" ++ c.timeText ""

end Clock

end TaintFlow
