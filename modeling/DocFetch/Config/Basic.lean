import DocFetch.Files.Path
import DocFetch.Value.Basic

/-! # Configurations

What a job reads, where from, where its records go and when it runs by itself; and the settings that
all jobs share.
-/

namespace DocFetch

/-- How a document is read. -/
inductive DocumentType
  | json
  | binary
deriving DecidableEq, Repr

inductive Backend
  | memory
  | sqlite
  | mongodb
deriving DecidableEq, Repr

inductive ScheduleType
  | cron
  | interval
  | once
deriving DecidableEq, Repr

inductive OutputFormat
  | json
  | sqlite
  | mongodb
deriving DecidableEq, Repr

def DocumentType.name : DocumentType → String
  | json => "Json"
  | binary => "Binary"

def Backend.name : Backend → String
  | memory => "memory"
  | sqlite => "sqlite"
  | mongodb => "mongodb"

def ScheduleType.name : ScheduleType → String
  | cron => "cron"
  | interval => "interval"
  | once => "once"

def OutputFormat.name : OutputFormat → String
  | json => "json"
  | sqlite => "sqlite"
  | mongodb => "mongodb"

def DocumentType.all : List DocumentType := [json, binary]

def Backend.all : List Backend := [memory, sqlite, mongodb]

def ScheduleType.all : List ScheduleType := [cron, interval, once]

def OutputFormat.all : List OutputFormat := [json, sqlite, mongodb]

structure ScheduleConfig where
  type : ScheduleType := .once
  value : Value := .null
deriving BEq

structure FetchConfig where
  clusterService : String
  bucketName : String := "default"
  documentType : DocumentType := .json
  idExpression : String := ""
deriving DecidableEq, Repr

structure StoreConfig where
  backend : Backend := .memory
  uri : Option String := none
  database : String := "keyfetch"
  path : Option Path := none
deriving DecidableEq, Repr

structure OutputConfig where
  format : OutputFormat := .json
  uri : Option String := none
  database : String := "keyfetch"
deriving DecidableEq, Repr

structure JobConfig where
  jobName : String
  fetch : FetchConfig
  store : StoreConfig := {}
  output : OutputConfig := {}
  schedule : Option ScheduleConfig := none
  maxWorkers : Option Int := none
deriving BEq

structure GlobalConfig where
  workers : Int := 8
  outputsDir : Path := .ofText "data/outputs"
  jobsDir : Path := .ofText "data/jobs"
  provenanceDb : Option Path := some (.ofText "data/provenance.db")
deriving DecidableEq, Repr

end DocFetch
