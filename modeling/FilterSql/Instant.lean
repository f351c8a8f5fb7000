/-!
Points in time on the proleptic Gregorian calendar in UTC, written as `2024-01-02T03:04:05` with the
fewest of 0, 3, 6 or 9 fraction digits that are exact. A leap second is kept as nanoseconds from one
second upwards and shows as second 60.
-/

namespace FilterSql

structure Instant where
  seconds : Int
  nanoseconds : Nat
  deriving DecidableEq

namespace Instant

/-- How the offset from UTC, which is always zero, is spelled. -/
inductive Zone where
  | letter
  | numeric
  deriving DecidableEq

def Zone.text : Zone → String
  | .letter => "Z"
  | .numeric => "+00:00"

structure Date where
  year : Int
  month : Nat
  day : Nat
  deriving DecidableEq

/-- The date of a day counted from 1970-01-01. Years are counted from March, which puts the leap day
last, in eras of 400 years or 146097 days. -/
def Date.ofDays (days : Int) : Date :=
  let shifted := days + 719468
  let era := shifted.fdiv 146097
  let dayOfEra := (shifted.fmod 146097).toNat
  let yearOfEra := (dayOfEra - dayOfEra / 1460 + dayOfEra / 36524 - dayOfEra / 146096) / 365
  let dayOfYear := dayOfEra - (365 * yearOfEra + yearOfEra / 4 - yearOfEra / 100)
  let monthFromMarch := (5 * dayOfYear + 2) / 153
  let month := if monthFromMarch < 10 then monthFromMarch + 3 else monthFromMarch - 9
  let year := era * 400 + yearOfEra
  { year := if month ≤ 2 then year + 1 else year
    month := month
    day := dayOfYear - (153 * monthFromMarch + 2) / 5 + 1 }

def padded (width value : Nat) : String :=
  let digits := Nat.toDigits 10 value
  String.ofList (List.replicate (width - digits.length) '0' ++ digits)

/-- Years outside four digits carry a sign. -/
def yearText (year : Int) : String :=
  let digits := padded 4 year.natAbs
  if year < 0 then "-" ++ digits else if 9999 < year then "+" ++ digits else digits

def fractionText (nanoseconds : Nat) : String :=
  if nanoseconds = 0 then ""
  else if nanoseconds % 1000000 = 0 then "." ++ padded 3 (nanoseconds / 1000000)
  else if nanoseconds % 1000 = 0 then "." ++ padded 6 (nanoseconds / 1000)
  else "." ++ padded 9 nanoseconds

def text (zone : Zone) (instant : Instant) : String :=
  let date := Date.ofDays (instant.seconds.fdiv 86400)
  let secondOfDay := (instant.seconds.fmod 86400).toNat
  let second := secondOfDay % 60 + instant.nanoseconds / 1000000000
  let dateText := yearText date.year ++ "-" ++ padded 2 date.month ++ "-" ++ padded 2 date.day
  let timeText :=
    padded 2 (secondOfDay / 3600) ++ ":" ++ padded 2 (secondOfDay / 60 % 60) ++ ":" ++
      padded 2 second ++ fractionText (instant.nanoseconds % 1000000000)
  dateText ++ "T" ++ timeText ++ zone.text

example : (Instant.mk 1483228799 1500000000).text .letter = "2016-12-31T23:59:60.500Z" := by
  decide +kernel

example : (Instant.mk 253402300800 0).text .numeric = "+10000-01-01T00:00:00+00:00" := by
  decide +kernel

end Instant

end FilterSql
