/-!
Points in time, as text.

* `Timestamp` — the time since the start of 1970, in the zone without offset;
* `Timestamp.offsetText` — a time with its offset, with no more digits than it needs;
* `Timestamp.zoneText` — a time to the microsecond, with the letter for no offset.

Design notes: years are counted from March, so that the day that some years have more is the last of
its year.  Four hundred such years have 146097 days.
-/

namespace InlineAudit

/-- A point in time: whole seconds since the start of 1970, and nanoseconds after that. -/
structure Timestamp where
  seconds : Nat
  nanos : Nat
  deriving Repr, DecidableEq, Inhabited

namespace Timestamp

/-- The days from the first of March of the year zero to the start of 1970. -/
def daysBefore1970 : Nat := 719468

/-- The year, month and day of a day since the start of 1970. -/
def date (days : Nat) : Nat × Nat × Nat :=
  let z := days + daysBefore1970
  let era := z / 146097
  let dayOfEra := z % 146097
  let yearOfEra := (dayOfEra - dayOfEra / 1460 + dayOfEra / 36524 - dayOfEra / 146096) / 365
  let dayOfYear := dayOfEra - (365 * yearOfEra + yearOfEra / 4 - yearOfEra / 100)
  let fromMarch := (5 * dayOfYear + 2) / 153
  let day := dayOfYear - (153 * fromMarch + 2) / 5 + 1
  let month := if fromMarch < 10 then fromMarch + 3 else fromMarch - 9
  (yearOfEra + 400 * era + (if month ≤ 2 then 1 else 0), month, day)

/-- A number with zeros in front, up to a width. -/
def padded (width n : Nat) : String :=
  let s := toString n
  String.ofList (List.replicate (width - s.length) '0') ++ s

/-- The date and the time of day, to the second. -/
def toSecond (t : Timestamp) : String :=
  let (year, month, day) := date (t.seconds / 86400)
  let s := t.seconds % 86400
  padded 4 year ++ "-" ++ padded 2 month ++ "-" ++ padded 2 day ++ "T" ++ padded 2 (s / 3600) ++
    ":" ++ padded 2 (s / 60 % 60) ++ ":" ++ padded 2 (s % 60)

/-- The fraction of the second in three, six or nine digits, or none. -/
def fraction (t : Timestamp) : String :=
  if t.nanos = 0 then ""
  else if t.nanos % 1000000 = 0 then "." ++ padded 3 (t.nanos / 1000000)
  else if t.nanos % 1000 = 0 then "." ++ padded 6 (t.nanos / 1000)
  else "." ++ padded 9 t.nanos

/-- A time with its offset. -/
def offsetText (t : Timestamp) : String := t.toSecond ++ t.fraction ++ "+00:00"

/-- A time to the microsecond, with the letter for no offset. -/
def zoneText (t : Timestamp) : String := t.toSecond ++ "." ++ padded 6 (t.nanos / 1000) ++ "Z"

end Timestamp

end InlineAudit
