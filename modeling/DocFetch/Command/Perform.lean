import DocFetch.Command.Arguments
import DocFetch.Command.Console
import DocFetch.Job.Batch
import DocFetch.Job.Runner
import DocFetch.Schedule.NextRun

/-! # Performing commands

A command works on a home directory that was opened for it, reads answers and writes lines. It ends with an
exit code, or in a failure that it does not handle.
-/

namespace DocFetch.Command

/-- A command at work. -/
structure Session where
  home : Home
  repository : Repository
  runner : Runner
  /-- The lines still to be read. -/
  input : List String
  output : List String := []
  /-- Whether a line was asked for when none was left. -/
  waiting : Bool := false

abbrev SessionM (α : Type) := Action Session α

namespace Session

variable {α : Type}

def onHome (a : Action Home α) : SessionM α := a.zoom Session.home fun s home => { s with home }

def onRunner (a : Action (Runner × Home) α) : SessionM α :=
  a.zoom (fun s => (s.runner, s.home)) fun s (runner, home) => { s with runner, home }

def look (f : FileTree → Except Failure α) : SessionM α := onHome (Home.look f)

def emit (ls : List String) : SessionM Unit := modify fun s => { s with output := s.output ++ ls }

/-- Prints a text that may hold tags. -/
def say (s : String) : SessionM Unit := do emit (← Action.ofExcept (Console.marked s))

/-- The next line of input. -/
def ask : SessionM (Option String) := do
  match (← get).input with
  | [] =>
    modify fun s => { s with waiting := true }
    return none
  | line :: rest =>
    modify fun s => { s with input := rest }
    return some line

end Session

open Session

/-! ## Tables -/

def jobCells (job : JobConfig) : List String :=
  [job.jobName, job.store.backend.name, job.fetch.bucketName, job.fetch.documentType.name,
    if job.fetch.idExpression.isEmpty then "(record content)" else job.fetch.idExpression,
    (job.schedule.map ScheduleConfig.label).getD "-"]

def jobTable (jobs : List JobConfig) : Except Failure Console.Table := do
  return {
    title := "Fetch jobs (" ++ toString jobs.length ++ ")"
    header := ["Name", "Store", "Bucket", "Type", "Document id", "Schedule"]
    rows := ← jobs.mapM fun j => (jobCells j).mapM Console.Table.cell }

def summaryTable (name : String) (s : Summary) : Except Failure Console.Table := do
  return {
    title := ← Console.Table.cell ("Run summary: " ++ name)
    header := ["Counter", "Value"]
    rows := s.fields.map fun (k, n) => [k, toString n] }

def nextRunText (m : Option Moment) : String :=
  (m.map fun m => { m with clock := { m.clock with microsecond := 0 } }.textWith "T").getD "-"

def scheduleTable (jobs : List (ScheduledJob × Option Moment)) : Except Failure Console.Table := do
  return {
    title := "Scheduled jobs"
    header := ["Name", "Trigger", "Next run"]
    rows := ← jobs.mapM fun (j, next) => do
      return [← Console.Table.cell j.name, Console.clean j.trigger.text, nextRunText next] }

def logTable (paths : List Path) : Except Failure Console.Table := do
  return {
    title := "Job logs"
    header := ["Job", "Path"]
    rows := ← paths.mapM fun p => [p.stem, p.text].mapM Console.Table.cell }

def present (t : Except Failure Console.Table) : SessionM Unit := do
  emit (← Action.ofExcept t).lines

/-! ## Commands -/

def listJobs : SessionM Nat := do
  let jobs ← look (← get).repository.layout.listJobs
  if jobs.isEmpty then say "No jobs configured yet."
  else present (jobTable jobs)
  return 0

def showJob (name : String) : SessionM Nat := do
  let l := (← get).repository.layout
  match ← (look fun files => l.loadJob files name).attempt with
  | .ok job =>
    match job.toValue true with
    | .map entries =>
      match Yaml.dump? { unicode := false } entries with
      | some text => say text
      | none => Action.fail (.fault .badValue)
    | _ => return 1
    return 0
  | .error f =>
    if !f.isMissingFile then Action.fail f
    say f.message
    return 1

/-- Asks until the answer is yes or no; nothing at all is no, and none where the input ends. -/
def confirm (prompt : String) : Nat → SessionM (Option Bool)
  | 0 => return none
  | fuel + 1 => do
    match ← ask with
    | none =>
      emit [prompt]
      return none
    | some line =>
      emit [prompt ++ " " ++ line]
      let answer := Text.toLower line |> Text.trim
      if answer = "y" ∨ answer = "yes" then return some true
      else if answer = "n" ∨ answer = "no" ∨ answer = "" then return some false
      else
        emit ["Error: invalid input"]
        confirm prompt fuel

def quotedJob (name : String) : String := "\x60" ++ name ++ "\x60"

def removeJob (name : String) (confirmed : Bool) : SessionM Nat := do
  let l := (← get).repository.layout
  if !(← look (·.exists? (l.jobFile name))) then
    say ("Job " ++ quotedJob name ++ " does not exist.")
    return 1
  let answer ← if confirmed then pure (some true)
    else confirm ("Delete job " ++ quotedJob name ++ "? [y/N]:") ((← get).input.length + 1)
  match answer with
  | none => return 1
  | some false => return 0
  | some true =>
    onHome (Home.onWorld (l.deleteJob name))
    say ("Job " ++ quotedJob name ++ " removed.")
    return 0

/-- New records for contents, each with the same attributes. -/
def newRecords (contents : List String) (attributes : Attributes) : SessionM (List Record) := do
  let uuids ← contents.mapM fun _ => onHome (Home.draw : StateM Home String)
  return batchRecords (fun i => uuids.getD i "") contents attributes

/-- The contents listed in a file, which is text. -/
def listedIn (p : Path) (files : FileTree) : Except Failure (List String) := do
  match Text.decodeUtf8? (← files.read p) with
  | some text => return listedContents text
  | none => .error (.fault .undecodable)

/-- The records for ids and for those listed in a file, or none for a run without records. -/
def buildRecords (ids : List String) (attributes : Attributes) (file : Option String) :
    SessionM (Option (List Record)) := do
  let listed ← match file with
    | some p => look (listedIn (.ofText p))
    | none => pure []
  (batchContents ids listed attributes).mapM fun contents => newRecords contents attributes

def runJob (name : String) (ids pairs : List String) (file : Option String) : SessionM Nat := do
  let attributes ← Action.ofExcept ((readAttributes pairs).mapError Failure.refused)
  let records ← buildRecords ids attributes file
  match ← (onRunner (Runner.run name records)).attempt with
  | .error f =>
    if !f.isMissingFile then Action.fail f
    say f.message
    return 1
  | .ok s =>
    present (summaryTable name s)
    if s.statuses .aborted = 0 then return 0
    say (toString (s.statuses .aborted) ++ " invocation(s) aborted: check the document id setting.")
    return 1

def onScheduler {α : Type} (a : Action (Scheduler × Home) α) : SessionM α :=
  a.zoom (fun s => (s.runner.scheduler, s.home)) fun s (scheduler, home) =>
    { s with home, runner := { s.runner with scheduler } }

def stopScheduler : SessionM Unit := do
  let (scheduler, es) := (← get).runner.scheduler.shutdown
  modify fun s => { s with runner := { s.runner with scheduler } }
  onHome (es.forM fun e => (Home.log .scheduler e : StateM Home Unit))

/-- Schedules the jobs, shows them and gives their number. -/
def startSchedule : SessionM Nat := do
  let jobs ← look (← get).repository.layout.listJobs
  let now := (← get).home.now
  let count ← onScheduler (Scheduler.register (Home.log .scheduler) now jobs)
  if count = 0 then say "No job has a schedule."
  else
    present (scheduleTable ((← get).runner.scheduler.upcoming now))
    say ("Scheduled " ++ toString count ++ " job(s). Press Ctrl+C to stop.")
  return count

/-- A schedule that ends as soon as it began. -/
def schedule : SessionM Nat := do
  if (← startSchedule) ≠ 0 then stopScheduler
  return 0

/-- Runs the jobs that have come due since a moment; a run that fails is logged and nothing more. -/
def runDue (since : Moment) : SessionM Unit := do
  let s ← get
  (s.runner.scheduler.due since s.home.now).forM fun job =>
    discard <| (onRunner (Runner.runByTimer job)).attempt

def showLog (job : Option String) (count : Int) : SessionM Nat := do
  let l := (← get).home.layout
  let path := match job with
    | some name => if name.isEmpty then l.mainLog else l.jobLog name
    | none => l.mainLog
  let entries ← look (Home.tail path count)
  if entries.isEmpty then say ("No log entries in " ++ path.text ++ ".")
  else emit (entries.flatMap fun e => Console.lines (String.ofList ((e.toList.reverse.dropWhile (· = '\n')).reverse)))
  return 0

def listLogs : SessionM Nat := do
  let paths := (← get).home.jobLogFiles
  if paths.isEmpty then say "No job logs yet."
  else present (logTable paths)
  return 0

def perform : Task → SessionM Nat
  | .listJobs => listJobs
  | .showJob name => showJob name
  | .removeJob name confirmed => removeJob name confirmed
  | .runJob name ids attributes file => runJob name ids attributes file
  | .schedule _ => schedule
  | .showLog job count => showLog job count
  | .listLogs => listLogs

/-! ## Command lines -/

/-- How a command line ended; a failure that was not handled is an exit with code 1. -/
structure Outcome where
  exit : Nat
  output : List String := []
  failure : Option Failure := none
  /-- Whether it ended for want of a line of input. -/
  waiting : Bool := false

def Request.exit : Request → Nat
  | .help => 0
  | _ => 2

/-- Opens the home directory for a command. -/
def openSession (input : List String) : Action Home Session := do
  Home.openLogs
  let repository ← Home.onWorld (Repository.openAt (← get).layout)
  let (settings, repository) ← Home.onWorld repository.loadGlobal
  let (runner, repository) ← Runner.openFor repository settings.workers []
  return { home := ← get, repository, runner, input }

/-- Stops what a command started. -/
def closeSession : SessionM Unit := do
  stopScheduler
  modify fun s => { s with runner := { s.runner with pools := s.runner.pools.close } }
  onHome Home.closeJobLogs

/-- Attributes that cannot be read count as misuse. -/
def outcomeOf (r : Except Failure Nat) (output : List String) : Outcome :=
  match r with
  | .ok exit => { exit, output }
  | .error (.refused (.malformedAttribute _)) => { exit := 2, output }
  | .error f => { exit := 1, output, failure := some f }

/-- Performs a request in a session, which is closed at the end. -/
def performRequest (request : Request) : StateM Session Outcome := do
  match request with
  | .perform task =>
    let r ← (perform task).run
    discard closeSession.run
    return { outcomeOf r (← get).output with waiting := (← get).waiting }
  | request =>
    discard closeSession.run
    return { exit := request.exit }

/-- Works with connections of its own, and gives back those that were there. -/
def withOwnConnections {α : Type} (a : StateM Home α) : StateM Home α := fun h =>
  let storageWith (h : Home) (connections : Connections) : Home :=
    { h with world := { h.world with storage := { h.world.storage with connections } } }
  let (r, h') := a (storageWith h {})
  (r, storageWith h' h.world.storage.connections)

/-- Carries out a command line. -/
def execute (args input : List String) : StateM Home Outcome := do
  let reading := read args
  if !reading.named then return { exit := reading.request.exit }
  withOwnConnections do
    match ← (openSession input).run with
    | .error f => return { exit := 1, failure := some f }
    | .ok s =>
      let (outcome, s) := (performRequest reading.request).run s
      set s.home
      return outcome

end DocFetch.Command
