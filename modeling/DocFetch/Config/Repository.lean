import DocFetch.Config.Fields
import DocFetch.Config.Validate
import DocFetch.Home.Layout
import DocFetch.Job.Slug
import DocFetch.Json.Reader
import DocFetch.Json.Writer
import DocFetch.Text.Lines
import DocFetch.World
import DocFetch.Yaml.Reader
import DocFetch.Yaml.Writer

/-! # Configurations in files

One file per job, named by the slug of the job, and one for the settings that all jobs share, which is
written with the default settings when it is not there. Files are YAML or JSON by their suffix.
-/

namespace DocFetch

namespace ConfigFile

def isYaml (p : Path) : Bool := p.suffix = ".yaml" || p.suffix = ".yml"

def isConfig (p : Path) : Bool := isYaml p || p.suffix = ".json"

/-- The mapping in a text; YAML that holds nothing is an empty one. -/
def parse (p : Path) (text : String) : Except Failure Value := do
  let v ← if isYaml p then do
      let v ← Yaml.read text
      pure (if v.isTruthy then v else .map [])
    else
      match Json.read? text with
      | some v => pure v
      | none => .error (.fault .malformedJson)
  match v with
  | .map _ => return v
  | _ => .error (.refused (.notAMapping p.text))

def read (files : FileTree) (p : Path) : Except Failure Value := do
  match Text.decodeUtf8? (← files.read p) with
  | some text => parse p text
  | none => .error (.fault .undecodable)

/-- What comes out when a mapping is written. YAML is made before any of it is written, JSON while it is. -/
def text (p : Path) (entries : List (Value × Value)) : String :=
  if isYaml p then (Yaml.dump? {} entries).getD "" else Json.joinPieces (Json.pieces 0 (.map entries))

/-- Whether all of a mapping can be written. -/
def isWritable (p : Path) (entries : List (Value × Value)) : Bool :=
  if isYaml p then (Yaml.dump? {} entries).isSome else (Json.pieces 0 (.map entries)).all Option.isSome

/-- How writing a mapping to a file ends that was opened. -/
def outcome (p : Path) (entries : List (Value × Value)) : Except Failure Unit :=
  if isWritable p entries then .ok () else .error (.fault .badValue)

/-- Writes a mapping; the file keeps what came out before a failure. -/
def write (p : Path) (v : Value) : Action World Unit :=
  match v with
  | .map entries => do
    World.changeFiles (·.write p (Text.encodeUtf8 (text p entries)))
    Action.ofExcept (outcome p entries)
  | _ => Action.fail (.fault .wrongType)

end ConfigFile

/-- The job in a file; `identifier` is how the file was asked for. -/
def JobConfig.load (files : FileTree) (p : Path) (identifier : String) : Except Failure JobConfig := do
  if ← files.exists? p then JobConfig.ofValue (← ConfigFile.read files p)
  else .error (.refused (.jobNotFound identifier))

namespace Layout

/-- Creates the directories that are not there. -/
def prepare (l : Layout) : Action World Unit :=
  [l.data, l.jobs, l.outputs, l.logs].forM fun p => World.changeFiles (·.makeDirectories p)

def jobFile (l : Layout) (job : String) : Path := l.jobs.child (jobFileName job)

def loadJob (l : Layout) (files : FileTree) (job : String) : Except Failure JobConfig :=
  JobConfig.load files (l.jobFile job) job

/-- The configuration files of jobs in the order of their names. -/
def jobFiles (l : Layout) (files : FileTree) : List Path :=
  ((files.children l.jobs).filter fun p => files.isFile p && ConfigFile.isConfig p).mergeSort
    fun p q => p.name ≤ q.name

def listJobs (l : Layout) (files : FileTree) : Except Failure (List JobConfig) :=
  (l.jobFiles files).mapM fun p => JobConfig.load files p p.text

/-- Writes the configuration of a job and gives the path of its file. -/
def saveJob (l : Layout) (c : JobConfig) : Action World Path := do
  ConfigFile.write (l.jobFile c.jobName) (c.toValue true)
  return l.jobFile c.jobName

def deleteJob (l : Layout) (job : String) : Action World Unit :=
  World.changeFiles fun t => do
    if ← t.exists? (l.jobFile job) then t.remove (l.jobFile job) else return t

/-- Where the configurations that can be read keep documents, outputs and provenance. -/
def places (l : Layout) (files : FileTree) : List Path :=
  let settings := match ConfigFile.read files l.globalConfig >>= GlobalConfig.ofValue with
    | .ok c => c.outputsDir :: c.provenanceDb.toList
    | .error _ => []
  let stores := (l.jobFiles files).filterMap fun p =>
    (JobConfig.load files p p.text).toOption.bind fun c => c.store.path
  (settings ++ stores).map l.resolve

end Layout

/-- The configurations of a home directory; the shared settings are read once. -/
structure Repository where
  layout : Layout
  settings : Option GlobalConfig := none

namespace Repository

/-- Creates the directories that are not there. -/
def openAt (layout : Layout) : Action World Repository := do
  layout.prepare
  return { layout }

def saveGlobal (r : Repository) (c : GlobalConfig) : Action World Repository := do
  ConfigFile.write r.layout.globalConfig (c.toValue false)
  return { r with settings := some c }

def loadGlobal (r : Repository) : Action World (GlobalConfig × Repository) := do
  match r.settings with
  | some c => return (c, r)
  | none =>
    let files := (← get).files
    if ← Action.ofExcept (files.exists? r.layout.globalConfig) then
      let c ← Action.ofExcept (do GlobalConfig.ofValue (← ConfigFile.read files r.layout.globalConfig))
      return (c, { r with settings := some c })
    else return ({}, ← r.saveGlobal {})

end Repository

end DocFetch
