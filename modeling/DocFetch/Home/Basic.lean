import DocFetch.Home.Layout
import DocFetch.Log.Line
import DocFetch.Log.Tail
import DocFetch.World

/-! # A home directory at work

What jobs act on, together with the logs that are open, the clock, and a source of uuids. Logs are set up
for one home directory at a time.
-/

namespace DocFetch

/-- The logs that are open, those of jobs by the names of their loggers, and the loggers of jobs that were ever made. -/
structure Journal where
  main : Option MainLogs := none
  jobs : List (String × LogPath) := []
  made : List String := []

structure Home where
  layout : Layout
  world : World := {}
  journal : Journal := {}
  now : Moment
  uuid : Nat → String

namespace Home

def onWorld {α : Type} (a : Action World α) : Action Home α :=
  a.zoom Home.world fun h world => { h with world }

def files (h : Home) : FileTree := h.world.files

def draw : StateM Home String := fun h =>
  let (u, world) := World.draw h.uuid h.world
  (u, { h with world })

/-- What is looked up in the files. -/
def look {α : Type} (f : FileTree → Except Failure α) : Action Home α := do
  Action.ofExcept (f (← get).files)

/-! ## Logs -/

/-- Opens a file for writing at its end. -/
def openLog (p : Path) : Action Home Unit := onWorld (World.changeFiles (·.append p .empty))

def closeJobLogs : Action Home Unit := modify fun h => { h with journal := { h.journal with jobs := [] } }

/-- Opens the logs of the home directory unless they are open; the logs of jobs of another one are closed. -/
def openLogs : Action Home Unit := do
  let l := (← get).layout
  if (← get).journal.main.map MainLogs.directory ≠ some l.logs then
    onWorld (World.changeFiles (·.makeDirectories l.jobLogs))
    closeJobLogs
    match ← (do openLog l.errorLog; openLog l.mainLog : Action Home Unit).attempt with
    | .ok () => modify fun h => { h with journal := { main := some l.mainLogs, made := h.journal.made } }
    | .error _ => Action.fail (.fault .badValue)

/-- The failure of a log that cannot be opened. -/
def cannotLog (p : Path) (f : Failure) : Failure :=
  match f with
  | .platform .noSuchFile _ =>
    .platform .noSuchFile ("[Errno 2] No such file or directory: " ++ Text.quoted p.text)
  | f => f

/-- The logger of a job, whose log is opened. -/
def jobLogger (job : String) : Action Home Log.Logger := do
  openLogs
  let logger := Log.Logger.job job
  if !Assoc.contains logger.name (← get).journal.jobs then
    let p := (← get).layout.jobLogFile job
    match ← (openLog p).attempt with
    | .ok () => modify fun h =>
        { h with journal := { h.journal with
          jobs := h.journal.jobs ++ [(logger.name, p)], made := logger.name :: h.journal.made } }
    | .error f => Action.fail (cannotLog p f)
  return logger

/-- The logs that an entry goes to: below the level of information to none. -/
def logsOf (j : Journal) (l : Log.Logger) (level : Log.Level) : List LogPath :=
  if level.rank < Log.Level.info.rank then []
  else
    ((j.jobs.filter fun e => Log.Logger.takes j.made e.1 l.name).map Prod.snd) ++
      match j.main with
      | none => []
      | some m => m.all :: if level.rank < Log.Level.error.rank then [] else [m.errors]

/-- Writes at the end of a log; one that cannot be written is passed over. -/
def writeLog (line : ByteArray) (p : LogPath) : StateM Home Unit := do
  discard <| (onWorld (World.changeFiles (·.append p line))).run

/-- Writes an entry to every log that it goes to. -/
def log (l : Log.Logger) (e : Log.Entry) : StateM Home Unit := do
  let h ← get
  (logsOf h.journal l e.level).forM (writeLog (Text.encodeUtf8 (e.line l h.now)))

/-- The last lines of a log; there are none where there is no file. -/
def tail (p : Path) (count : Int) (files : FileTree) : Except Failure (List String) := do
  if ← files.exists? p then return Log.tail (← files.read p) count else return []

/-- The logs of jobs in the order of their names. -/
def jobLogFiles (h : Home) : List Path :=
  ((h.files.children h.layout.jobLogs).filter fun p => p.name.endsWith ".log").mergeSort
    fun p q => p.name ≤ q.name

end Home

end DocFetch
