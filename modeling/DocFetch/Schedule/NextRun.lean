import DocFetch.Schedule.Scheduler

/-! # The next run

When a trigger fires next. A cron expression fires at the first full minute from now on whose values it
takes in.
-/

namespace DocFetch

/-- The moment in universal time that many microseconds after the last day of year 0 began. -/
def Moment.ofInstant? (n : Int) : Option Moment := do
  let micros := n.toNat
  let seconds := micros / 1000000
  let date ← Date.ofOrdinal? (seconds / 86400)
  let s := seconds % 86400
  return ⟨date, ⟨s / 3600, s / 60 % 60, s % 60, micros % 1000000⟩, some 0⟩

namespace Cron.Expression

def takesDay (e : Expression) (d : Date) : Bool :=
  e.month.any (Term.holds .month d.month) && e.dayOfWeek.any (Term.holds .dayOfWeek d.weekday) &&
    e.day.any fun t => t = .lastDay && d.day = Date.daysInMonth d.year d.month || t.holds .day d.day

/-- The first minute of a day, counted from midnight, that is taken in and not before `least`. -/
def minuteFrom? (e : Expression) (least : Nat) : Option Nat :=
  (List.range' least (1440 - least)).find? fun n =>
    e.hour.any (Term.holds .hour (n / 60)) && e.minute.any (Term.holds .minute (n % 60))

/-- The first time taken in from a minute of the day with the number `ordinal` on, within `days` days. -/
def from? (e : Expression) : Nat → Nat → Nat → Option Moment
  | 0, _, _ => none
  | days + 1, ordinal, least =>
    match Date.ofOrdinal? ordinal with
    | none => none
    | some d =>
      match if e.takesDay d then e.minuteFrom? least else none with
      | some n => some ⟨d, ⟨n / 60, n % 60, 0, 0⟩, some 0⟩
      | none => from? e days (ordinal + 1) 0

/-- Forty years hold every day of a month on every day of the week. -/
def next? (e : Expression) (now : Moment) : Option Moment :=
  let c := now.clock
  let started := if c.second = 0 ∧ c.microsecond = 0 then 0 else 1
  if e.occurs then e.from? 14610 now.date.ordinal (c.hour * 60 + c.minute + started) else none

end Cron.Expression

def Trigger.next? (now : Moment) (t : Trigger) : Option Moment :=
  match t with
  | .cron e => e.next? now
  | .interval period start _ =>
    if t.recurs now then Moment.ofInstant? (nextOf now.instant period.microseconds start.instant) else none
  | .once m => some { m with offset := some (m.offset.getD 0) }

/-- The jobs in the order of their next runs; those without one come last. -/
def Scheduler.upcoming (now : Moment) (s : Scheduler) : List (ScheduledJob × Option Moment) :=
  let all := s.jobs.map fun j => (j, if j.hasNextRun then j.trigger.next? now else none)
  let (timed, idle) := all.partition fun e => e.2.isSome
  (timed.mergeSort fun a b => (a.2.map Moment.instant).getD 0 ≤ (b.2.map Moment.instant).getD 0) ++ idle

/-- The jobs with a run after `since` that has come by `now`. -/
def Scheduler.due (since now : Moment) (s : Scheduler) : List String :=
  (s.upcoming since).filterMap fun (j, next) =>
    if next.any fun m => since.instant < m.instant && m.instant ≤ now.instant then some j.name else none

example : ((Cron.read? "30 4 29 2 *").bind fun e => e.next? ⟨⟨2025, 1, 1⟩, ⟨0, 0, 0, 0⟩, some 0⟩).map
    Moment.text = some "2028-02-29 04:30:00+00:00" := by decide +kernel

end DocFetch
