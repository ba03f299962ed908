import DocFetch.Config.Repository
import DocFetch.Export.Open
import DocFetch.Home.Basic
import DocFetch.Job.Invocation
import DocFetch.Pools
import DocFetch.Provenance
import DocFetch.Schedule.Scheduler
import DocFetch.Store.Open

/-! # Running jobs

A runner runs the jobs of a home directory: each run opens the store and the output of the job, goes
through a batch of records, closes what it opened however the batch ends, and logs its counts.
-/

namespace DocFetch

structure Runner where
  layout : Layout
  settings : GlobalConfig
  provenance : Provenance.Reporter
  pools : Pools
  scheduler : Scheduler := {}
  /-- Stores that are shared by the name of the job and never closed here. -/
  stores : List (String × DocumentStore Home) := []

namespace Runner

variable {α : Type}

def onHome (a : Action Home α) : Action (Runner × Home) α := a.zoom Prod.snd fun s h => (s.1, h)

/-- Where provenance goes by the settings; a database is created. -/
def openProvenance (l : Layout) (settings : GlobalConfig) : Action World Provenance.Reporter := do
  match settings.provenanceDb with
  | none => return .log
  | some p =>
    let path := l.resolve p
    discard <| World.onStorage (Storage.connect path)
    return .database path

/-- A runner for the jobs of a repository. -/
def openFor (r : Repository) (workers : Int) (stores : List (String × DocumentStore Home)) :
    Action Home (Runner × Repository) := do
  Home.openLogs
  let (settings, r) ← Home.onWorld r.loadGlobal
  let provenance ← Home.onWorld (openProvenance r.layout settings)
  return ({ layout := r.layout, settings, provenance, pools := { defaultSize := workers }, stores }, r)

/-- Reports that a record was received. -/
def receive (r : Runner) (record : Record) (location : String) : Action Home Unit := do
  match r.provenance with
  | .log =>
    Home.log .provenance (Provenance.entry (.text Provenance.receiveKind) record (.text location))
  | .database path =>
    let now := (← get).now
    Home.onWorld (World.onStorage (Provenance.report path (now.textWith "T") (.text Provenance.receiveKind) record
      (.text location)))

/-- A store in memory that is opened for a run holds nothing. -/
def storeWarnings (r : Runner) (job : JobConfig) : List Log.Entry :=
  if job.store.backend = .memory ∧ ¬Assoc.contains job.jobName r.stores then
    [⟨.warning, "memory_store_is_empty", [("bucket", .text job.fetch.bucketName)]⟩]
  else []

/-- The store of a job, and whether it was opened for this use alone. -/
def openStore (r : Runner) (job : JobConfig) : Action Home (DocumentStore Home × Bool) := do
  match Assoc.get? job.jobName r.stores with
  | some s => return (s, false)
  | none =>
    let s ← Home.onWorld (job.store.openStore job.fetch.bucketName (some r.layout.root))
    return (s.reader.zoom Home.world fun h world => { h with world }, true)

def fetcher (r : Runner) (job : JobConfig) (store : DocumentStore Home) (log : Log.Entry → StateM Home Unit) :
    Fetcher Home where
  config := job.fetch
  store := store
  draw := Home.draw
  receive := r.receive
  log := log

def openRouter (job : JobConfig) (directory : Path) (tag : String) : Action Home (Router Home) := do
  let router ← Home.onWorld (job.output.openRouter job.jobName directory tag)
  return router.zoom Home.world fun h world => { h with world }

/-- Goes through a batch and closes the router, and then the store if it is `owned`. -/
def runBatch {σ : Type} (f : Fetcher σ) (owned : Bool) (pool : Except Failure Pool)
    (batch : List (Option Record)) : Action (Router σ × σ) (List Invocation) :=
  Action.ensuring
    (do
      discard <| Action.ofExcept pool
      f.invokeAll batch)
    (do
      Router.close
      if owned then Router.beside f.store.close)

/-- A run without records has one invocation. -/
def batchOf : Option (List Record) → List (Option Record)
  | some records => records.map some
  | none => [none]

/-- What a run has opened for its batch. -/
structure Opened where
  logger : Log.Logger
  fetcher : Fetcher Home
  /-- Whether the store was opened for this run alone. -/
  owned : Bool
  router : Router Home
  pool : Except Failure Pool

/-- Opens what a run of a job needs. -/
def openRun (job : JobConfig) (records : Option (List Record)) : Action (Runner × Home) Opened := do
  let runner := (← get).1
  let logger ← onHome (Home.jobLogger job.jobName)
  let log := Home.log logger
  onHome ((runner.storeWarnings job).forM fun e => (log e : StateM Home Unit))
  let (store, owned) ← onHome (runner.openStore job)
  let now := (← get).2.now
  let router ← onHome (openRouter job (runner.layout.resolve runner.settings.outputsDir) now.tag)
  onHome (log ⟨.info, "job_started",
    [("invocations", .int (batchOf records).length), ("timer_triggered", .bool records.isNone)]⟩)
  let (pool, pools) := runner.pools.jobPool job.jobName job.maxWorkers
  modify fun (r, h) => ({ r with pools }, h)
  return { logger, fetcher := runner.fetcher job store log, owned, router, pool }

/-- The invocations of a batch and the records that went to each channel. -/
def goThrough (o : Opened) (batch : List (Option Record)) : Action Home (List Invocation × (Channel → Nat)) :=
  Action.ofFunction fun h =>
    let (ends, router, h) := (runBatch o.fetcher o.owned o.pool batch).exec (o.router, h)
    (ends.map fun invocations => (invocations, router.counts), h)

/-- Runs a job once per record, or once without a record. -/
def run (name : String) (records : Option (List Record)) : Action (Runner × Home) Summary := do
  let layout := (← get).1.layout
  let job ← onHome (Home.look fun files => layout.loadJob files name)
  let o ← openRun job records
  let (invocations, channels) ← onHome (goThrough o (batchOf records))
  let summary := Summary.ofInvocations invocations channels
  onHome (Home.log o.logger ⟨.info, "job_finished", summary.fields.map fun (k, n) => (k, .int n)⟩)
  return summary

/-- Logs that a run in the background failed. -/
def reportFailure (job : String) (f : Failure) : Action Home Unit := do
  let logger ← Home.jobLogger job
  Home.log logger ⟨.error, "job_run_failed",
    [("error", .text f.message), ("error_type", .text f.qualifiedName)]⟩

/-- A run that a timer starts, in the background: a failure is also logged. -/
def runByTimer (job : String) : Action (Runner × Home) Summary := do
  let (pool, pools) := (← get).1.pools.triggerPool
  modify fun (r, h) => ({ r with pools }, h)
  discard <| Action.ofExcept pool
  match ← (run job none).attempt with
  | .ok s => return s
  | .error f =>
    discard <| (onHome (reportFailure job f)).attempt
    Action.fail f

end Runner

/-- Schedules those of some jobs that have a schedule, starts the scheduler, and gives their number. -/
def Scheduler.register {σ : Type} (log : Log.Entry → StateM σ Unit) (now : Moment) (jobs : List JobConfig) :
    Action (Scheduler × σ) Nat := do
  let beside (es : List Log.Entry) : Action (Scheduler × σ) Unit :=
    Action.zoom Prod.snd (fun s t => (s.1, t)) (es.forM fun e => (log e : StateM σ Unit))
  let counts ← jobs.mapM fun job => do
    let (done, s, es) ← Action.ofExcept ((← get).1.schedule now job)
    modify fun (_, t) => (s, t)
    beside es
    return if done then 1 else 0
  let (s, es) := (← get).1.start now
  modify fun (_, t) => (s, t)
  beside es
  return counts.foldl (· + ·) 0

end DocFetch
