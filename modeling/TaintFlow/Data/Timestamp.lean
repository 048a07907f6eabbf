/-
  TaintFlow.Data.Timestamp
  ────────────────────────
  Calendar dates and times of day as they occur in data files.

  A timestamp is a date, or a date with a time of day and perhaps an offset
  from universal time.  `shown` is its plain text, `constructed` its form inside
  a written list or mapping.
-/
import TaintFlow.Number.Notation
import TaintFlow.Text.Blank

namespace TaintFlow

/-- A time of day; `offset` counts the minutes ahead of universal time. -/
structure ClockTime where
  hour : Nat
  minute : Nat
  second : Nat
  microsecond : Nat
  offset : Option Int
  deriving DecidableEq, Repr

/-- A date, with or without a time of day. -/
structure Timestamp where
  year : Nat
  month : Nat
  day : Nat
  time : Option ClockTime
  deriving DecidableEq, Repr

namespace Timestamp

/-! ## §1. The calendar. -/

/-- Does the year have a 29th of February? -/
def isLeap (year : Nat) : Bool := year % 4 == 0 && (year % 100 != 0 || year % 400 == 0)

/-- The number of days of a month. -/
def daysIn (year month : Nat) : Nat :=
  if month = 2 then (if isLeap year then 29 else 28)
  else if month = 4 ∨ month = 6 ∨ month = 9 ∨ month = 11 then 30 else 31

/-- Is this a day and time that exists? -/
def valid (t : Timestamp) : Bool :=
  decide (1 ≤ t.year ∧ t.year ≤ 9999 ∧ 1 ≤ t.month ∧ t.month ≤ 12 ∧ 1 ≤ t.day ∧ t.day ≤ daysIn t.year t.month) &&
    match t.time with
    | none => true
    | some c =>
      decide (c.hour < 24 ∧ c.minute < 60 ∧ c.second < 60 ∧ c.microsecond < 1000000) &&
        match c.offset with
        | none => true
        | some o => decide (-1440 < o ∧ o < 1440)

/-- The number of days from the first day of the calendar to a date. -/
def dayNumber (t : Timestamp) : Nat :=
  let years := t.year - 1
  let months := (List.range (t.month - 1)).foldr (fun m n => daysIn t.year (m + 1) + n) 0
  365 * years + years / 4 - years / 100 + years / 400 + months + t.day

/-- The microseconds of a time of day in universal time. -/
def microsecondsOf (c : ClockTime) : Int :=
  (((c.hour * 60 + c.minute : Nat) : Int) - c.offset.getD 0) * 60000000 + c.second * 1000000 + c.microsecond

/-- The sort of a timestamp (a date, a time without an offset, a time with one) and its place on the
axis of time.  Times with different offsets may be one moment. -/
def momentKey (t : Timestamp) : Nat × Int :=
  let days : Int := t.dayNumber * 86400000000
  match t.time with
  | none => (0, days)
  | some c => (if c.offset.isSome then 2 else 1, days + microsecondsOf c)

/-! ## §2. Written forms. -/

/-- The offset of a time of day, as in `+05:30`. -/
def offsetText (minutes : Int) : String :=
  (if minutes < 0 then "-" else "+") ++ Binary64.padded 2 (minutes.natAbs / 60) ++ ":" ++
    Binary64.padded 2 (minutes.natAbs % 60)

/-- The plain text of a timestamp. -/
def shown (t : Timestamp) : String :=
  let date := Binary64.padded 4 t.year ++ "-" ++ Binary64.padded 2 t.month ++ "-" ++ Binary64.padded 2 t.day
  match t.time with
  | none => date
  | some c =>
    date ++ " " ++ Binary64.padded 2 c.hour ++ ":" ++ Binary64.padded 2 c.minute ++ ":" ++
      Binary64.padded 2 c.second ++
      (if c.microsecond = 0 then "" else "." ++ Binary64.padded 6 c.microsecond) ++
      (match c.offset with
       | none => ""
       | some o => offsetText o)

/-- The arguments of a constructed time of day, where zeros at the end are left out. -/
def clockArguments (c : ClockTime) : List Nat :=
  [c.hour, c.minute] ++
    (if c.microsecond ≠ 0 then [c.second, c.microsecond] else if c.second ≠ 0 then [c.second] else [])

/-- The zone of a constructed time of day. -/
def zoneText (minutes : Int) : String :=
  if minutes = 0 then "datetime.timezone.utc"
  else
    let total := minutes * 60
    let days := if total < 0 then "days=-1, " else ""
    let seconds := if total < 0 then 86400 + total else total
    "datetime.timezone(datetime.timedelta(" ++ days ++ "seconds=" ++ toString seconds ++ "))"

/-- The form of a timestamp inside a written list or mapping. -/
def constructed (t : Timestamp) : String :=
  let date := [t.year, t.month, t.day]
  match t.time with
  | none => "datetime.date(" ++ Text.joinWith ", " (date.map toString) ++ ")"
  | some c =>
    "datetime.datetime(" ++ Text.joinWith ", " ((date ++ clockArguments c).map toString) ++
      (match c.offset with
       | none => ""
       | some o => ", tzinfo=" ++ zoneText o) ++ ")"

end Timestamp

end TaintFlow
