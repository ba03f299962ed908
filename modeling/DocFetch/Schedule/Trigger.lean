import DocFetch.Config.Basic
import DocFetch.Schedule.Cron
import DocFetch.Schedule.Duration
import DocFetch.Schedule.Iso

/-! # Triggers

What makes a job run by itself: a cron expression, a period, or one moment. Moments without an offset are
in universal time.
-/

namespace DocFetch

inductive Trigger
  | cron (expression : Cron.Expression)
  | interval (period : Duration) (start : Moment) (limit : Option Moment)
  | once (moment : Moment)
deriving DecidableEq

namespace Trigger

/-- The offset by name. -/
def zoneText (offset : Option Int) : String :=
  match offset with
  | none | some 0 => "UTC"
  | some o => "UTC" ++ offsetText o

def momentText (m : Moment) : String :=
  toString m.date.year ++ "-" ++ padLeft 2 m.date.month ++ "-" ++ padLeft 2 m.date.day ++ " " ++
    m.clock.toSeconds ++ " " ++ zoneText m.offset

def text : Trigger → String
  | cron e => e.text
  | interval period .. => "interval[" ++ period.text ++ "]"
  | once m => "date[" ++ momentText m ++ "]"

/-- The first time after `now` at which an interval comes round. -/
def nextOf (now : Int) (period : Int) (start : Int) : Int :=
  if start > now then start else start - Int.fdiv (start - now) period * period

/-- Whether the trigger fires at all from `now` on. -/
def recurs (now : Moment) : Trigger → Bool
  | cron e => e.occurs
  | interval period start limit =>
    limit.all fun m => nextOf now.instant period.microseconds start.instant ≤ m.instant
  | once _ => true

/-- One or two digits at the start, and the rest. -/
def shortNumber? (cs : List Char) : Option (Nat × List Char) :=
  match Iso.digits? 2 cs with
  | some r => some r
  | none => Iso.digits? 1 cs

def expect (c : Char) : List Char → Option (List Char)
  | d :: rest => if c = d then some rest else none
  | [] => none

/-- `Z`, or sign, hours and minutes, at the end. -/
def zone? (cs : List Char) : Option (Option Int) :=
  match cs with
  | [] => some none
  | ['Z'] => some (some 0)
  | sign :: rest => do
    let (h, rest) ← Iso.digits? 2 rest
    let (m, rest) ← Iso.digits? 2 (← expect ':' rest)
    let n : Int := (h * 60 + m : Nat) * 60000000
    if ¬rest.isEmpty then none
    else if sign = '+' then some (some n)
    else if sign = '-' then some (some (-n))
    else none

/-- A time of day with all its parts, and an offset. -/
def clockAndZone? (cs : List Char) : Option (Clock × Option Int) := do
  let (h, rest) ← shortNumber? cs
  let (m, rest) ← shortNumber? (← expect ':' rest)
  let (s, rest) ← shortNumber? (← expect ':' rest)
  match rest with
  | '.' :: rest =>
    let ds := (rest.takeWhile Char.isDigit).take 6
    let (n, rest) ← Iso.digits? ds.length rest
    if ds.isEmpty then none else return (⟨h, m, s, n⟩, ← zone? rest)
  | rest => return (⟨h, m, s, 0⟩, ← zone? rest)

/-- A bound of an interval as text: a date, and perhaps a time of day. -/
def bound? (s : String) : Option Moment := do
  let (year, rest) ← Iso.digits? 4 s.toList
  let (month, rest) ← shortNumber? (← expect '-' rest)
  let (day, rest) ← shortNumber? (← expect '-' rest)
  let (clock, offset) ← match rest with
    | [] => some (⟨0, 0, 0, 0⟩, none)
    | c :: rest => if c = ' ' ∨ c = 'T' then clockAndZone? rest else none
  let date : Date := ⟨year, month, day⟩
  if date.isValid ∧ clock.isValid then some ⟨date, clock, offset⟩ else none

def boundOf (v : Value) : Except Failure (Option Moment) :=
  match v with
  | .null => .ok none
  | .moment m => .ok (some m)
  | .date d => .ok (some ⟨d, ⟨0, 0, 0, 0⟩, none⟩)
  | .text s =>
    match bound? s with
    | some m => .ok (some m)
    | none => .error (.fault .badValue)
  | _ => .error (.fault .wrongType)

/-- The moment a period after `now`. -/
def after (now : Moment) (period : Duration) : Except Failure Moment :=
  let n := now.instant + period.microseconds
  let days := Int.fdiv n Duration.day
  let rest := (n - days * Duration.day).toNat
  match Date.ofOrdinal? days.toNat with
  | some d =>
    let s := rest / 1000000
    .ok ⟨d, ⟨s / 3600, s / 60 % 60, s % 60, rest % 1000000⟩, some 0⟩
  | none => .error (.fault .overflow)

/-- The units of an interval in microseconds, in the order in which they are added. -/
def units : List (String × Nat) :=
  [("seconds", 1000000), ("minutes", 60000000), ("hours", 3600000000), ("days", 86400000000),
    ("weeks", 604800000000)]

def intervalOptions : List String :=
  units.map Prod.fst ++ ["start_date", "end_date", "timezone", "jitter"]

/-- An interval from the amounts of its units and its options; no length at all counts as a second. -/
def ofOptions (now : Moment) (options : List (Value × Value)) : Except Failure Trigger := do
  unless options.all fun o => intervalOptions.any fun n => o.1 == .text n do
    .error (.fault .wrongType)
  let option (name : String) : Value := (Value.field? name options).getD .null
  let tally ← units.foldlM (fun (t : Duration.Tally) (name, unit) =>
    t.add unit ((Value.field? name options).getD (.int 0))) {}
  let period ← Duration.ofTally tally
  let period := if period.microseconds = 0 then ⟨Duration.second⟩ else period
  match option "timezone" with
  | .text _ => pure ()
  | v => if v.isTruthy then .error (.fault .wrongType) else pure ()
  let start ← if (option "start_date").isTruthy then boundOf (option "start_date")
    else some <$> after now period
  let limit ← boundOf (option "end_date")
  return .interval period (start.getD now) limit

/-- The seconds between two runs as a float. -/
def secondsOf (v : Value) : Except Failure Value :=
  match v with
  | .int n =>
    match Binary64.ofInt n with
    | .infinite _ => .error (.fault .overflow)
    | x => .ok (.float x)
  | .bool b => .ok (.float (Binary64.ofInt (if b then 1 else 0)))
  | .float x => .ok (.float x)
  | _ => .error (.fault .wrongType)

/-- The trigger of a schedule. -/
def ofSchedule (now : Moment) (c : ScheduleConfig) : Except Failure Trigger :=
  match c.type with
  | .cron =>
    match Cron.read? c.value.display with
    | some e => .ok (.cron e)
    | none => .error (.fault .badValue)
  | .interval =>
    match c.value with
    | .map options => ofOptions now options
    | v => do ofOptions now [(.text "seconds", ← secondsOf v)]
  | .once =>
    if c.value.isTruthy then
      match Iso.moment? c.value.display with
      | some m => .ok (.once m)
      | none => .error (.fault .badValue)
    else .ok (.once now)

/-- The trigger of a schedule whose type goes by a name that was not checked. -/
def ofNamed (now : Moment) (type : Option Value) (value : Value) : Except Failure Trigger :=
  match type with
  | none => ofSchedule now ⟨.once, value⟩
  | some t => .error (.refused (.unknownScheduleType t.display))

example : zoneText (some (-19800000000)) = "UTC-05:30" := by decide +kernel

end Trigger

namespace ScheduleConfig

/-- Whether a schedule says no more than its type. -/
def isBare (c : ScheduleConfig) : Bool :=
  match c.value with
  | .null => true
  | .text s => s.isEmpty
  | .list items => items.isEmpty
  | .map entries => entries.isEmpty
  | _ => false

/-- A schedule in a table of jobs. -/
def label (c : ScheduleConfig) : String :=
  if c.isBare then c.type.name else c.type.name ++ " (" ++ c.value.display ++ ")"

end ScheduleConfig

end DocFetch
