import DocFetch.Fetch.Outcome
import DocFetch.Log.Entry
import DocFetch.Log.Tail
import DocFetch.Text.Digits
import DocFetch.World

/-! # Results as plain data

What a program that embeds the library shows of failures, records and outcomes. Bytes are shown in
hexadecimal.
-/

namespace DocFetch

def hexObject (b : ByteArray) : Value := .object [("hex", .text (Text.hexOfBytes b))]

/-- The value, or the hexadecimal form of bytes. -/
def Value.hexed : Value → Value
  | .bytes b => hexObject b
  | v => v

def Issue.report (i : Issue) : Value :=
  .object ([("loc", .list (i.location.map .text)), ("type", .text i.kind)] ++
    (i.message.map fun m => ("message", .text m)).toList)

/-- The kind of a failure, and its text where the program gave it. -/
def Failure.fields (f : Failure) : List (String × Value) :=
  ("error", .text f.kind) :: match f with
    | .fetch e => [("message", .text e.message)]
    | .refused r => [("message", .text r.message)]
    | .invalid model issues => [("model", .text model), ("fields", .list (issues.map Issue.report))]
    | _ => []

def Failure.report (f : Failure) : Value := .object f.fields

def Record.fields (r : Record) : List (String × Value) :=
  [("uuid", .text r.uuid), ("attributes", Record.attributesValue r.attributes), ("payload", hexObject r.payload)]

def Record.report (r : Record) : Value := .object r.fields

def Transfer.report (t : Transfer) : Value :=
  .object [("relationship", .text t.channel.name), ("record", t.record.report)]

def Document.report {α : Type} (content : α → Value) (d : Document α) : Value :=
  .object [("content", content d.content), ("cas", d.cas.toValue), ("expiry", d.expiry.toValue)]

def FetchResult.report : FetchResult → Value
  | .found content cas expiry => .object [("type", .text "Found"), ("content", hexObject content),
      ("cas", cas.toValue), ("expiry", expiry.toValue)]
  | .notFound e => .object [("type", .text "NotFound"), ("message", .text e.message)]
  | .storeError e => .object [("type", .text "StoreError"), ("cause", (Failure.fetch e).report)]

def Log.Entry.report (e : Log.Entry) : Value :=
  .object [("level", .text e.level.name), ("event", .text e.event), ("fields", .object e.fields)]

def Event.report (e : Event) : Value :=
  .object [("event_kind", .text e.kind), ("record_uuid", .text e.uuid), ("location", .text e.location),
    ("attributes", e.attributes), ("timestamp", .text e.timestamp)]

/-- A row of the table of documents with its key. -/
def DocumentRow.report (e : (String × String) × DocumentRow) : Value :=
  .list ([.text e.1.1, .text e.1.2] ++ e.2.columns.map fun c => c.2.toValue.hexed)

def MongoClient.report (c : MongoClient) : Value :=
  let path (k : String × String) : String := k.1 ++ "/" ++ k.2
  .object [("uri", .text c.uri), ("names", .list (c.accessed.map fun k => .text (path k))),
    ("inserted", .object (c.inserted.map fun (k, docs) => (path k, .list docs))), ("closed", .int c.closed)]

def ExportRow.reportAll (rows : List ExportRow) : Value :=
  .list (rows.mapIdx fun i r => .list [.int (i + 1), .text r.uuid, .text r.payload])

/-- The files of lines and the databases of rows below a directory, by their paths from there. -/
def FileTree.exportReport (files : FileTree) (directory : Path) : Value :=
  let place (p : Path) : String := "/".intercalate (p.parts.drop directory.parts.length)
  .object ((files.below directory).filterMap fun (p, n) =>
    match n with
    | .file b => if p.suffix = ".jsonl" then some (place p, .text (Text.decodeUtf8Lenient b)) else none
    | .database d _ =>
      if p.suffix = ".db" then
        some (place p, .object (d.exports.map fun t => (t.1, ExportRow.reportAll t.2)))
      else none
    | .directory => none)

end DocFetch
