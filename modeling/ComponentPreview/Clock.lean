/-!
# Instants

An instant is a number of microseconds since the start of 2026 in universal time. Dates follow the
Gregorian calendar, with years that start in March so that the leap day comes last.
-/

namespace ComponentPreview

/-- Microseconds since `2026-01-01T00:00:00Z`. -/
abbrev Instant := Int

namespace Instant

def minutes (count : Int) : Int := count * 60000000

structure Date where
  year : Int
  month : Nat
  day : Nat
  deriving DecidableEq, Repr

/-- Days from the first of March of year zero to the start of 2026. -/
def epochDays : Int := 739922

/-- The date a number of days after the start of 2026. -/
def dateOfDays (days : Int) : Date :=
  let count := days + epochDays
  let era := count / 146097
  let dayOfEra := (count - era * 146097).toNat
  let yearOfEra := (dayOfEra - dayOfEra / 1460 + dayOfEra / 36524 - dayOfEra / 146096) / 365
  let dayOfYear := dayOfEra - (365 * yearOfEra + yearOfEra / 4 - yearOfEra / 100)
  let monthFromMarch := (5 * dayOfYear + 2) / 153
  let day := dayOfYear - (153 * monthFromMarch + 2) / 5 + 1
  let month := if monthFromMarch < 10 then monthFromMarch + 3 else monthFromMarch - 9
  let year := (yearOfEra : Int) + era * 400
  ⟨if month ≤ 2 then year + 1 else year, month, day⟩

def padded (width n : Nat) : String :=
  let digits := Nat.toDigits 10 n
  String.ofList (List.replicate (width - digits.length) '0' ++ digits)

def microsecondsOfDay (instant : Instant) : Nat :=
  (instant % 86400000000).toNat

/-- Date and time to the second. -/
def seconds (instant : Instant) : String :=
  let date := dateOfDays (instant / 86400000000)
  let second := microsecondsOfDay instant / 1000000
  padded 4 date.year.toNat ++ "-" ++ padded 2 date.month ++ "-" ++ padded 2 date.day ++ "T" ++
    padded 2 (second / 3600) ++ ":" ++ padded 2 (second / 60 % 60) ++ ":" ++ padded 2 (second % 60)

def microsecond (instant : Instant) : Nat :=
  microsecondsOfDay instant % 1000000

/-- The instant cut to milliseconds. -/
def toMilliseconds (instant : Instant) : String :=
  seconds instant ++ "." ++ padded 3 (microsecond instant / 1000) ++ "Z"

/-- The instant with its microseconds, unless there are none, before the mark of its zone. -/
def toMicroseconds (zone : String) (instant : Instant) : String :=
  seconds instant ++
    (if microsecond instant = 0 then "" else "." ++ padded 6 (microsecond instant)) ++ zone

/-- The first instant of year one, before which there are no dates. -/
def first : Instant :=
  -63902822400000000

/-- The last instant of the year 9999, after which there are no dates. -/
def last : Instant :=
  251635075199999999

/-- Why a length of time does not lead to a date. -/
inductive DateError
  | tooLarge
  | tooManyDays (days : Int)
  | outOfRange
  deriving DecidableEq, Repr

def DateError.message : DateError → String
  | tooLarge => "Python int too large to convert to C int"
  | tooManyDays days => "days=" ++ toString days ++ "; must have magnitude <= 999999999"
  | outOfRange => "date value out of range"

/-- The instant a number of minutes before another, which must be a date. -/
def ago (count : Int) (now : Instant) : Except DateError Instant :=
  let days := count / 1440
  let instant := now - minutes count
  if days < -2147483648 || 2147483647 < days then .error .tooLarge
  else if days < -999999999 || 999999999 < days then .error (.tooManyDays days)
  else if instant < first || last < instant then .error .outOfRange
  else .ok instant

end Instant

end ComponentPreview
