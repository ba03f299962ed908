import DocFetch.Config.Fields
import DocFetch.Log.Entry
import DocFetch.Schedule.Trigger

/-! # The scheduler

Keeps one trigger per job. Until it is started it only collects what is to be scheduled, in order and
with later entries for a job beside earlier ones; starting takes the last entry of each job, and stopping
drops them all.
-/

namespace DocFetch

/-- A job with its trigger; the run that comes next exists for a trigger that still fires. -/
structure ScheduledJob where
  name : String
  trigger : Trigger
  hasNextRun : Bool := false

structure Scheduler where
  started : Bool := false
  waiting : List ScheduledJob := []
  active : List (String × ScheduledJob) := []

namespace Scheduler

/-- Adds jobs with triggers to those that are active. -/
def activate (now : Moment) (jobs : List ScheduledJob) (active : List (String × ScheduledJob)) :
    List (String × ScheduledJob) :=
  jobs.foldl (fun acc j => Assoc.put j.name { j with hasNextRun := j.trigger.recurs now } acc) active

def start (now : Moment) (s : Scheduler) : Scheduler × List Log.Entry :=
  if s.started then (s, [])
  else
    let active := activate now s.waiting s.active
    ({ started := true, waiting := [], active },
      [⟨.info, "scheduler_started", [("jobs", .int active.length)]⟩])

def shutdown (s : Scheduler) : Scheduler × List Log.Entry :=
  if s.started then ({ s with started := false, active := [] }, [⟨.info, "scheduler_stopped", []⟩])
  else (s, [])

/-- Schedules a job that has a schedule; says whether it has. -/
def schedule (now : Moment) (job : JobConfig) (s : Scheduler) :
    Except Failure (Bool × Scheduler × List Log.Entry) := do
  match job.schedule with
  | none => return (false, s, [⟨.debug, "job_without_schedule", [("job", .text job.jobName)]⟩])
  | some c =>
    let entry : ScheduledJob := ⟨job.jobName, ← Trigger.ofSchedule now c, false⟩
    let s := if s.started then { s with active := activate now [entry] s.active }
      else { s with waiting := s.waiting ++ [entry] }
    return (true, s,
      [⟨.info, "job_scheduled", [("job", .text job.jobName), ("schedule", c.toValue false)]⟩])

/-- The jobs scheduled. -/
def jobs (s : Scheduler) : List ScheduledJob :=
  if s.started then s.active.map Prod.snd else s.waiting

def idStart : String := "job::"

/-- The name of the job that an event is about. -/
def jobOfId (id : String) : String := String.ofList (id.toList.drop idStart.length)

/-- A run was missed that was to take place at a time. -/
def missed (id : String) (time : Option Moment) : Log.Entry :=
  ⟨.warning, "timer_run_missed", [("job", .text (jobOfId id)),
    ("scheduled_for", .text ((time.map Moment.text).getD "None"))]⟩

/-- A run could not be started. -/
def failed (id : String) (error : Option (List Value)) : Log.Entry :=
  ⟨.error, "timer_trigger_failed", [("job", .text (jobOfId id)),
    ("error", .text ((error.map (argsShown "RuntimeError")).getD "None"))]⟩

end Scheduler

end DocFetch
