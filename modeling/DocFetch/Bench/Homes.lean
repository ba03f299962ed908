import DocFetch.Command.Perform
import DocFetch.Store.Scripted

/-! # A bench for a home directory

One repository and one runner at a time, made when they are first needed, so that jobs can be configured,
run and looked at step by step.
-/

namespace DocFetch

structure HomeBench where
  home : Home
  repository : Option Repository := none
  runner : Option Runner := none
  /-- What was logged where logging is watched. -/
  logs : List Log.Entry := []

namespace HomeBench

variable {α : Type}

def onHome (a : Action Home α) : Action HomeBench α := a.zoom HomeBench.home fun b home => { b with home }

def onWorld (a : Action World α) : Action HomeBench α := onHome (Home.onWorld a)

def onStorage (a : Action Storage α) : Action HomeBench α := onWorld (World.onStorage a)

def look (f : FileTree → Except Failure α) : Action HomeBench α := onHome (Home.look f)

def keepRepository (r : Repository) : Action HomeBench Unit := modify fun b => { b with repository := some r }

def theRepository : Action HomeBench Repository := do
  match (← get).repository with
  | some r => return r
  | none =>
    let r ← onWorld (Repository.openAt (← get).home.layout)
    keepRepository r
    return r

def layout : Action HomeBench Layout := do return (← theRepository).layout

/-! ## Configurations -/

def loadJob (name : String) : Action HomeBench JobConfig := do
  let l ← layout
  look fun files => l.loadJob files name

def loadJobAt (p : Path) : Action HomeBench JobConfig := do
  discard layout
  look fun files => JobConfig.load files p p.text

def saveJob (c : JobConfig) : Action HomeBench Path := do onWorld ((← layout).saveJob c)

def deleteJob (name : String) : Action HomeBench Unit := do onWorld ((← layout).deleteJob name)

def listJobs : Action HomeBench (List JobConfig) := do look (← layout).listJobs

def listFiles : Action HomeBench (List Path) := do
  let l ← layout
  return l.jobFiles (← get).home.files

def loadGlobal : Action HomeBench GlobalConfig := do
  let (c, r) ← onWorld (← theRepository).loadGlobal
  keepRepository r
  return c

def saveGlobal (c : GlobalConfig) : Action HomeBench Unit := do
  keepRepository (← onWorld ((← theRepository).saveGlobal c))

/-! ## Runs -/

/-- Makes a new runner. -/
def start (workers : Int) (stores : List (String × DocumentStore Home)) : Action HomeBench Runner := do
  let r ← theRepository
  let (runner, r) ← onHome (Runner.openFor r workers stores)
  keepRepository r
  modify fun b => { b with runner := some runner }
  return runner

def theRunner : Action HomeBench Runner := do
  match (← get).runner with
  | some r => return r
  | none => start 1 []

def onRunner (a : Action (Runner × Home) α) : Action HomeBench α := do
  let r ← theRunner
  a.zoom (fun b => (b.runner.getD r, b.home)) fun b (runner, home) => { b with home, runner := some runner }

def run (name : String) (records : Option (List Record)) : Action HomeBench Summary :=
  onRunner (Runner.run name records)

/-- A run that a timer starts; the runner stops after it. -/
def runByTimer (name : String) : Action HomeBench Summary :=
  (onRunner (Runner.runByTimer name)).ensuring (modify fun b => { b with runner := none })

def watch (e : Log.Entry) : StateM HomeBench Unit := modify fun b => { b with logs := b.logs ++ [e] }

/-- Schedules jobs while logging is watched. -/
def register (jobs : List JobConfig) : Action HomeBench (Nat × Scheduler) := do
  let r ← theRunner
  modify fun b => { b with logs := [] }
  let n ← (Scheduler.register (fun e => modify (· ++ [e])) (← get).home.now jobs).zoom
    (fun b => ((b.runner.getD r).scheduler, b.logs))
    fun b (scheduler, logs) => { b with logs, runner := some { b.runner.getD r with scheduler } }
  return (n, ((← get).runner.getD r).scheduler)

/-- What one invocation came to. -/
structure Trial where
  invocation : Invocation
  /-- Whether the store was opened for the invocation alone. -/
  owned : Bool
  counts : Channel → Nat

/-- One invocation of a job while logging is watched, with its output in `directory`. -/
def invoke (name : String) (record : Option Record) (directory : Path) (tag : String) :
    Action HomeBench Trial := do
  let r ← theRunner
  let job ← loadJob name
  modify fun b => { b with logs := r.storeWarnings job }
  let (store, owned) ← onHome (r.openStore job)
  let router ← onHome (Runner.openRouter job directory tag)
  let setHome (b : HomeBench) (home : Home) : HomeBench := { b with home }
  let store := store.zoom HomeBench.home setHome
  let fetcher : Fetcher HomeBench := {
    config := job.fetch
    store
    draw := fun b => let (u, home) := Home.draw b.home; (u, { b with home })
    receive := fun record location => onHome (r.receive record location)
    log := watch }
  let trial := (fetcher.invoke record).ensuring do
    Router.close
    if owned then Router.beside store.close
  let (result, (router, b)) := trial.exec (router.zoom HomeBench.home setHome, ← get)
  set b
  return { invocation := ← Action.ofExcept result, owned, counts := router.counts }

/-! ## Logs -/

/-- Logs an entry to the log of a job or to the main log. -/
def log (job : Option String) (e : Log.Entry) : Action HomeBench Unit := onHome do
  match job with
  | some name =>
    let logger ← Home.jobLogger name
    Home.log logger e
  | none =>
    Home.openLogs
    Home.log .main e

def closeLogs : Action HomeBench Unit := onHome Home.closeJobLogs

/-- Goes on in another home directory once all that is open is closed. -/
def moveTo (root : Path) : Action HomeBench Unit := do
  closeLogs
  onStorage (modify Storage.closeAll)
  modify fun b => { b with repository := none, runner := none, home := { b.home with layout := ⟨root⟩ } }

end HomeBench

end DocFetch
