import Conference.Slot
import Conference.Text.Numeral

/-!
# Dates and times of day

Instants as people read them: the day of the proleptic Gregorian calendar and the time of day in
hours and minutes, both in universal time. Instants outside the range of the calendar are written as
the bare number of seconds.
-/

namespace Conference.Calendar

/-- A day of the Gregorian calendar, extended backwards without limit. -/
structure Day where
  year : Int
  month : Int
  dayOfMonth : Int
deriving DecidableEq

/-- The calendar day that lies `days` after 1970-01-01. Years are counted from March within eras of
400 years, so that a leap day is the last day of its year. -/
def Day.ofEpoch (days : Int) : Day :=
  let shifted := days + 719468
  let era := shifted / 146097
  let dayOfEra := shifted % 146097
  let yearOfEra := (dayOfEra - dayOfEra / 1460 + dayOfEra / 36524 - dayOfEra / 146096) / 365
  let dayOfYear := dayOfEra - (365 * yearOfEra + yearOfEra / 4 - yearOfEra / 100)
  let marchMonth := (5 * dayOfYear + 2) / 153
  let month := if marchMonth < 10 then marchMonth + 3 else marchMonth - 9
  { year := yearOfEra + era * 400 + (if month ≤ 2 then 1 else 0)
    month := month
    dayOfMonth := dayOfYear - (153 * marchMonth + 2) / 5 + 1 }

def number (width : Nat) (n : Int) : String :=
  String.ofList (Numeral.padded width n.natAbs)

/-- A year has at least four digits, and a sign unless it has exactly four and is not negative. -/
def year (y : Int) : String :=
  let sign := if y < 0 then "-" else if 9999 < y then "+" else ""
  sign ++ number 4 y

/-- First and last instant of the calendar. -/
def earliest : Int := -8334601228800

@[inherit_doc earliest]
def latest : Int := 8210266876799

def render (t : Int) : String :=
  if t < earliest ∨ latest < t then toString t
  else
    let day := Day.ofEpoch (t / 86400)
    let minute := t % 86400 / 60
    year day.year ++ "-" ++ number 2 day.month ++ "-" ++ number 2 day.dayOfMonth ++ " "
      ++ number 2 (minute / 60) ++ ":" ++ number 2 (minute % 60)

end Conference.Calendar

namespace Conference.Slot

/-- A slot as its two ends, in the brackets of a half-open interval. -/
def render (s : Slot) : String :=
  "[" ++ Calendar.render s.start ++ ", " ++ Calendar.render s.stop ++ ")"

end Conference.Slot
