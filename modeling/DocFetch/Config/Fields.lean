import DocFetch.Config.Basic
import DocFetch.Json.Writer
import DocFetch.Text.Utf8

/-! # Configurations as plain data

The fields of a configuration in their order; fields that hold nothing can be left out. Values of a
schedule become data that a text format can hold.
-/

namespace DocFetch

/-- Universal time is marked by a letter. -/
def Moment.plainText (m : Moment) : String :=
  if m.offset = some 0 then { m with offset := none }.textWith "T" ++ "Z" else m.textWith "T"

def plainBytes (b : ByteArray) : String := (Text.decodeUtf8? b).getD (Text.quotedBytes b)

/-- The key of a mapping as a text. -/
def Value.plainKey : Value → String
  | .bool b => if b then "true" else "false"
  | .bytes b => plainBytes b
  | .moment m => m.plainText
  | v => v.display

mutual

/-- A value with texts for dates, bytes and the keys of mappings. -/
def Value.plain : Value → Value
  | .bytes b => .text (plainBytes b)
  | .date d => .text d.text
  | .moment m => .text m.plainText
  | .list items => .list (plainItems items)
  | .map entries => .map (Assoc.ofList (plainEntries entries))
  | v => v

def Value.plainItems : List Value → List Value
  | [] => []
  | v :: rest => v.plain :: plainItems rest

def Value.plainEntries : List (Value × Value) → List (Value × Value)
  | [] => []
  | (k, v) :: rest => (.text k.plainKey, v.plain) :: plainEntries rest

end

/-- A mapping of fields, those that hold nothing left out if `compact`. -/
def fieldsValue (compact : Bool) (fields : List (String × Value)) : Value :=
  .object (if compact then fields.filter fun f => f.2 != .null else fields)

def optionalText (s : Option String) : Value := (s.map Value.text).getD .null

def optionalPath (p : Option Path) : Value := (p.map fun p => Value.text p.text).getD .null

def ScheduleConfig.toValue (compact : Bool) (c : ScheduleConfig) : Value :=
  fieldsValue compact [("type", .text c.type.name), ("value", c.value.plain)]

def FetchConfig.toValue (compact : Bool) (c : FetchConfig) : Value :=
  fieldsValue compact [("cluster_service", .text c.clusterService), ("bucket_name", .text c.bucketName),
    ("document_type", .text c.documentType.name), ("document_id_expression", .text c.idExpression)]

def StoreConfig.toValue (compact : Bool) (c : StoreConfig) : Value :=
  fieldsValue compact [("backend", .text c.backend.name), ("uri", optionalText c.uri),
    ("database", .text c.database), ("path", optionalPath c.path)]

def OutputConfig.toValue (compact : Bool) (c : OutputConfig) : Value :=
  fieldsValue compact [("format", .text c.format.name), ("uri", optionalText c.uri),
    ("database", .text c.database)]

def JobConfig.toValue (compact : Bool) (c : JobConfig) : Value :=
  fieldsValue compact [("job_name", .text c.jobName), ("fetch", c.fetch.toValue compact),
    ("store", c.store.toValue compact), ("output", c.output.toValue compact),
    ("schedule", (c.schedule.map (·.toValue compact)).getD .null),
    ("max_workers", (c.maxWorkers.map Value.int).getD .null)]

def GlobalConfig.toValue (compact : Bool) (c : GlobalConfig) : Value :=
  fieldsValue compact [("thread_pool_workers", .int c.workers), ("outputs_dir", .text c.outputsDir.text),
    ("jobs_dir", .text c.jobsDir.text), ("provenance_db", optionalPath c.provenanceDb)]

end DocFetch
