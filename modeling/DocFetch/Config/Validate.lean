import DocFetch.Config.Basic
import DocFetch.Config.Verdict
import DocFetch.Text.Blank
import DocFetch.Text.Casing
import DocFetch.Text.Integer
import DocFetch.Text.Utf8

/-! # Checking configurations

Turns plain data into configurations. Fields that are missing take their defaults unchecked, fields that
are unknown are passed over, and whole numbers may come as texts or floats.
-/

namespace DocFetch

/-- The place of the field goes in front of what the check finds. -/
def fieldVerdict {α : Type} (name : String) (default : Option α) (check : Value → Verdict α)
    (fields : List (Value × Value)) : Verdict α :=
  Verdict.within name <|
    match Value.field? name fields with
    | some v => check v
    | none =>
      match default with
      | some a => .good a
      | none => .issue "missing"

def checkText : Value → Verdict String
  | .text s => .good s
  | .bytes b =>
    match Text.decodeUtf8? b with
    | some s => .good s
    | none => .issue "string_unicode"
  | _ => .issue "string_type"

/-- Bytes count as the text that they encode. -/
def textOfBytes : Value → Value
  | .bytes b => ((Text.decodeUtf8? b).map Value.text).getD (.bytes b)
  | v => v

def checkOptional {α : Type} (check : Value → Verdict α) : Value → Verdict (Option α)
  | .null => .good none
  | v => (check v).map some

def checkOneOf {α : Type} (all : List α) (name : α → String) (kind : String) (v : Value) : Verdict α :=
  match v with
  | .text s =>
    match all.find? fun a => name a == s with
    | some a => .good a
    | none => .issue kind
  | _ => .issue kind

def checkEnum {α : Type} (all : List α) (name : α → String) (v : Value) : Verdict α :=
  checkOneOf all name "enum" (textOfBytes v)

/-- A number in a text has at most 4300 digits. -/
def checkIntegerText (s : String) : Verdict Int :=
  match Text.readInteger? s with
  | some n => if n.natAbs < 10 ^ 4300 then .good n else .issue "int_parsing_size"
  | none => .issue "int_parsing"

/-- A whole float counts only within 64 bits. -/
def checkInteger : Value → Verdict Int
  | .int n => .good n
  | .bool b => .good (if b then 1 else 0)
  | .float x =>
    match x.toInt? with
    | some n => if -(2 ^ 63) < n ∧ n < 2 ^ 63 then .good n else .issue "int_parsing_size"
    | none => .issue (if x.isFinite then "int_from_float" else "finite_number")
  | .text s => checkIntegerText s
  | .bytes b =>
    match Text.decodeUtf8? b with
    | some s => checkIntegerText s
    | none => .issue "int_parsing"
  | _ => .issue "int_type"

def checkPath : Value → Verdict Path
  | .text s => .good (.ofText s)
  | _ => .abort (.fault .wrongType)

/-- Nothing and the empty text both stand for no path. -/
def checkOptionalPath : Value → Verdict (Option Path)
  | .null => .good none
  | .text s => if s.isEmpty then .good none else .good (some (.ofText s))
  | _ => .abort (.fault .wrongType)

/-- The names of document types may be written in any case, with blanks around them. -/
def checkDocumentType (v : Value) : Verdict DocumentType :=
  match v with
  | .text s =>
    match DocumentType.all.find? fun t => Text.toLower t.name == Text.toLower (Text.trim s) with
    | some t => .good t
    | none => .issue "enum"
  | v => checkEnum DocumentType.all DocumentType.name v

/-- Any value is an expression by its text, nothing being the empty one. -/
def checkExpression : Value → Verdict String
  | .null => .good ""
  | v => .good v.display

def checkFields {α : Type} (check : List (Value × Value) → Verdict α) : Value → Verdict α
  | .map fields => check fields
  | _ => .issue "model_type"

def isBlankText (s : String) : Bool := (Text.trim s).isEmpty

namespace ScheduleConfig

/-- Whether the value suits the type: a text, a number or mapping, or a text or nothing. -/
def complaint? (c : ScheduleConfig) : Option String :=
  match c.type, c.value with
  | .cron, .text _ => none
  | .cron, _ => some "Cron schedule requires string expression"
  | .interval, .int _ | .interval, .bool _ | .interval, .float _ | .interval, .map _ => none
  | .interval, _ => some "Interval schedule requires seconds (int/float) or kwargs dict"
  | .once, .null | .once, .text _ => none
  | .once, _ => some "Once schedule expects ISO datetime string or null"

def check : Value → Verdict ScheduleConfig :=
  checkFields fun fields =>
    let type := fieldVerdict "type" (some .once) (checkEnum ScheduleType.all ScheduleType.name) fields
    let value := fieldVerdict "value" (some .null) .good fields
    ((type.both value).map fun (type, value) => ⟨type, value⟩).check complaint?

end ScheduleConfig

namespace FetchConfig

def complaint? (c : FetchConfig) : Option String :=
  if isBlankText c.clusterService then some "cluster_service cannot be empty"
  else if isBlankText c.bucketName then some "bucket_name cannot be empty"
  else none

def check : Value → Verdict FetchConfig :=
  checkFields fun fields =>
    let cluster := fieldVerdict "cluster_service" none checkText fields
    let bucket := fieldVerdict "bucket_name" (some "default") checkText fields
    let type := fieldVerdict "document_type" (some .json) checkDocumentType fields
    let expression := fieldVerdict "document_id_expression" (some "") checkExpression fields
    ((cluster.both (bucket.both (type.both expression))).map fun (cluster, bucket, type, expression) =>
      FetchConfig.mk cluster bucket type expression).check complaint?

end FetchConfig

namespace StoreConfig

def complaint? (c : StoreConfig) : Option String :=
  if c.backend = .sqlite ∧ c.path = none then some "SQLite store requires a path"
  else if c.backend = .mongodb ∧ c.uri.getD "" = "" then some "MongoDB store requires a uri"
  else none

def check : Value → Verdict StoreConfig :=
  checkFields fun fields =>
    let backend := fieldVerdict "backend" (some .memory) (checkEnum Backend.all Backend.name) fields
    let uri := fieldVerdict "uri" (some none) (checkOptional checkText) fields
    let database := fieldVerdict "database" (some "keyfetch") checkText fields
    let path := fieldVerdict "path" (some none) checkOptionalPath fields
    ((backend.both (uri.both (database.both path))).map fun (backend, uri, database, path) =>
      StoreConfig.mk backend uri database path).check complaint?

end StoreConfig

namespace OutputConfig

def complaint? (c : OutputConfig) : Option String :=
  if c.format = .mongodb ∧ c.uri.getD "" = "" then some "MongoDB output requires a uri" else none

def check : Value → Verdict OutputConfig :=
  checkFields fun fields =>
    let format := fieldVerdict "format" (some .json)
      (checkOneOf OutputFormat.all OutputFormat.name "literal_error") fields
    let uri := fieldVerdict "uri" (some none) (checkOptional checkText) fields
    let database := fieldVerdict "database" (some "keyfetch") checkText fields
    ((format.both (uri.both database)).map fun (format, uri, database) =>
      OutputConfig.mk format uri database).check complaint?

end OutputConfig

namespace JobConfig

def complaint? (c : JobConfig) : Option String :=
  if isBlankText c.jobName then some "job_name cannot be empty"
  else if c.maxWorkers.any (· < 1) then some "max_workers must be >= 1"
  else none

def check : Value → Verdict JobConfig :=
  checkFields fun fields =>
    let name := fieldVerdict "job_name" none checkText fields
    let fetch := fieldVerdict "fetch" none FetchConfig.check fields
    let store := fieldVerdict "store" (some {}) StoreConfig.check fields
    let output := fieldVerdict "output" (some {}) OutputConfig.check fields
    let schedule := fieldVerdict "schedule" (some none) (checkOptional ScheduleConfig.check) fields
    let workers := fieldVerdict "max_workers" (some none) (checkOptional checkInteger) fields
    ((name.both (fetch.both (store.both (output.both (schedule.both workers))))).map
      fun (name, fetch, store, output, schedule, workers) =>
        JobConfig.mk name fetch store output schedule workers).check complaint?

def ofValue (v : Value) : Except Failure JobConfig := (check v).toExcept "JobConfig"

end JobConfig

namespace GlobalConfig

def complaint? (c : GlobalConfig) : Option String :=
  if c.workers < 1 then some "thread_pool_workers must be >= 1" else none

def check : Value → Verdict GlobalConfig :=
  checkFields fun fields =>
    let defaults : GlobalConfig := {}
    let workers := fieldVerdict "thread_pool_workers" (some defaults.workers) checkInteger fields
    let outputs := fieldVerdict "outputs_dir" (some defaults.outputsDir) checkPath fields
    let jobs := fieldVerdict "jobs_dir" (some defaults.jobsDir) checkPath fields
    let provenance := fieldVerdict "provenance_db" (some defaults.provenanceDb) checkOptionalPath fields
    ((workers.both (outputs.both (jobs.both provenance))).map fun (workers, outputs, jobs, provenance) =>
      GlobalConfig.mk workers outputs jobs provenance).check complaint?

def ofValue (v : Value) : Except Failure GlobalConfig := (check v).toExcept "GlobalConfig"

end GlobalConfig

def FetchConfig.ofValue (v : Value) : Except Failure FetchConfig := (check v).toExcept "FetchConfig"

def StoreConfig.ofValue (v : Value) : Except Failure StoreConfig := (check v).toExcept "StoreConfig"

def OutputConfig.ofValue (v : Value) : Except Failure OutputConfig := (check v).toExcept "OutputConfig"

def ScheduleConfig.ofValue (v : Value) : Except Failure ScheduleConfig :=
  (check v).toExcept "ScheduleConfig"

end DocFetch
