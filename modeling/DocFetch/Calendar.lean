/-! # Dates and times

A moment of the calendar, with the offset from universal time if it is known. Years run from 1 to 9999.
-/

namespace DocFetch

structure Date where
  year : Nat
  month : Nat
  day : Nat
deriving DecidableEq, Repr

structure Clock where
  hour : Nat
  minute : Nat
  second : Nat
  microsecond : Nat := 0
deriving DecidableEq, Repr

/-- `offset` counts microseconds east of universal time. -/
structure Moment where
  date : Date
  clock : Clock
  offset : Option Int := none
deriving DecidableEq, Repr

namespace Date

def isLeap (year : Nat) : Bool := year % 4 = 0 && (year % 100 ≠ 0 || year % 400 = 0)

def daysInMonth (year month : Nat) : Nat :=
  if month = 2 then (if isLeap year then 29 else 28)
  else if month = 4 ∨ month = 6 ∨ month = 9 ∨ month = 11 then 30
  else 31

def isValid (d : Date) : Bool :=
  1 ≤ d.year && d.year ≤ 9999 && 1 ≤ d.month && d.month ≤ 12 && 1 ≤ d.day &&
    d.day ≤ daysInMonth d.year d.month

/-- Days before the first of January of `year`, counted from the first of January of year 1. -/
def daysBeforeYear (year : Nat) : Nat :=
  let y := year - 1
  y * 365 + y / 4 - y / 100 + y / 400

def daysBeforeMonth (year month : Nat) : Nat :=
  (List.range (month - 1)).foldl (fun days m => days + daysInMonth year (m + 1)) 0

/-- The number of the day, the first of January of year 1 being day 1. -/
def ordinal (d : Date) : Nat := daysBeforeYear d.year + daysBeforeMonth d.year d.month + d.day

/-- Monday is 0. -/
def weekday (d : Date) : Nat := (d.ordinal + 6) % 7

private def monthOf (year : Nat) : Nat → Nat → Nat → Nat × Nat
  | 0, month, left => (month, left)
  | fuel + 1, month, left =>
    if left < daysInMonth year month then (month, left)
    else monthOf year fuel (month + 1) (left - daysInMonth year month)

/-- The day with a number, if its year is within range. -/
def ofOrdinal? (n : Nat) : Option Date :=
  if n = 0 then none
  else
    let guess := (n - 1) * 400 / 146097 + 1
    let year := if n ≤ daysBeforeYear guess then guess - 1
      else if n > daysBeforeYear (guess + 1) then guess + 1 else guess
    let (month, left) := monthOf year 11 1 (n - 1 - daysBeforeYear year)
    if 1 ≤ year ∧ year ≤ 9999 then some ⟨year, month, left + 1⟩ else none

/-- The first day of the week-numbered year: the Monday of the week that holds the fourth of January. -/
def isoYearStart (year : Nat) : Int :=
  let first : Int := (Date.mk year 1 1).ordinal
  let weekday : Int := (first + 6) % 7
  let monday := first - weekday
  if weekday > 3 then monday + 7 else monday

example : (Date.mk 2024 2 29).isValid = true := by decide
example : (Date.mk 2024 1 1).weekday = 0 := by decide
example : ofOrdinal? (Date.mk 2024 12 31).ordinal = some ⟨2024, 12, 31⟩ := by decide +kernel

end Date

def padLeft (width : Nat) (n : Nat) : String :=
  let ds := Nat.toDigits 10 n
  String.ofList (List.replicate (width - ds.length) '0' ++ ds)

namespace Date

def text (d : Date) : String := padLeft 4 d.year ++ "-" ++ padLeft 2 d.month ++ "-" ++ padLeft 2 d.day

end Date

namespace Clock

def isValid (c : Clock) : Bool :=
  c.hour < 24 && c.minute < 60 && c.second < 60 && c.microsecond < 1000000

def toSeconds (c : Clock) : String :=
  padLeft 2 c.hour ++ ":" ++ padLeft 2 c.minute ++ ":" ++ padLeft 2 c.second

/-- Microseconds are written only when there are any. -/
def text (c : Clock) : String :=
  c.toSeconds ++ (if c.microsecond = 0 then "" else "." ++ padLeft 6 c.microsecond)

end Clock

/-- An offset as sign, hours and minutes, with seconds and microseconds only where it has some. -/
def offsetText (offset : Int) : String :=
  let n := offset.natAbs
  let seconds := n / 1000000
  let micro := n % 1000000
  let sign := if offset < 0 then "-" else "+"
  sign ++ padLeft 2 (seconds / 3600) ++ ":" ++ padLeft 2 (seconds / 60 % 60) ++
    (if seconds % 60 = 0 ∧ micro = 0 then "" else ":" ++ padLeft 2 (seconds % 60)) ++
    (if micro = 0 then "" else "." ++ padLeft 6 micro)

namespace Moment

/-- Microseconds since the start of year 0's last day, in universal time if there is an offset. -/
def instant (m : Moment) : Int :=
  let c := m.clock
  let seconds : Int := ((m.date.ordinal * 24 + c.hour) * 60 + c.minute) * 60 + c.second
  seconds * 1000000 + c.microsecond - m.offset.getD 0

/-- `separator` stands between date and time of day. -/
def textWith (separator : String) (m : Moment) : String :=
  m.date.text ++ separator ++ m.clock.text ++ (m.offset.map offsetText).getD ""

def text (m : Moment) : String := m.textWith " "

/-- The moment as the tag of a run: digits only, a hyphen between date and time of day. -/
def tag (m : Moment) : String :=
  padLeft 4 m.date.year ++ padLeft 2 m.date.month ++ padLeft 2 m.date.day ++ "-" ++
    padLeft 2 m.clock.hour ++ padLeft 2 m.clock.minute ++ padLeft 2 m.clock.second

example : (Moment.mk ⟨2024, 1, 1⟩ ⟨10, 20, 30, 500000⟩ (some 7200000000)).text =
    "2024-01-01 10:20:30.500000+02:00" := by decide +kernel

end Moment

end DocFetch
