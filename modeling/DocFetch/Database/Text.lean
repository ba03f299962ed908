import DocFetch.Database.Basic
import DocFetch.Text.Digits

/-! # Databases as text

A database is one JSON object on the second line of a file whose first line tells it apart from other
files. Blobs are written in hexadecimal.
-/

namespace DocFetch

namespace Cell

def toJson : Cell → Value
  | .blob b => .object [("hex", .text (Text.hexOfBytes b))]
  | c => c.toValue

def ofJson? : Value → Option Cell
  | .null => some .null
  | .int n => some (.int n)
  | .float x => some (.real x)
  | .text s => some (.text s)
  | .map [(.text "hex", .text h)] => (Text.bytesOfHex? h).map .blob
  | _ => none

end Cell

def texts? : Value → Option (List String)
  | .list items => items.mapM fun v =>
    match v with
    | .text s => some s
    | _ => none
  | _ => none

namespace DocumentTable

def toJson (t : DocumentTable) : Value :=
  .list (t.map fun (k, r) => .list ([.text k.1, .text k.2] ++ r.columns.map fun c => c.2.toJson))

def rowOfJson? : Value → Option ((String × String) × DocumentRow)
  | .list [.text bucket, .text id, kind, content, cas, expiry] => do
    return ((bucket, id),
      ⟨← Cell.ofJson? kind, ← Cell.ofJson? content, ← Cell.ofJson? cas, ← Cell.ofJson? expiry⟩)
  | _ => none

end DocumentTable

namespace EventRow

def toJson (r : EventRow) : Value :=
  .list ([r.kind, r.uuid, r.location, r.attributes, r.timestamp].map .text)

def ofJson? (v : Value) : Option EventRow := do
  match ← texts? v with
  | [kind, uuid, location, attributes, timestamp] => return ⟨kind, uuid, location, attributes, timestamp⟩
  | _ => none

end EventRow

namespace ExportRow

def tableToJson (t : String × List ExportRow) : Value :=
  .list [.text t.1, .list (t.2.map fun r => .list [.text r.uuid, .text r.payload])]

def ofJson? (v : Value) : Option ExportRow := do
  match ← texts? v with
  | [uuid, payload] => return ⟨uuid, payload⟩
  | _ => none

def tableOfJson? : Value → Option (String × List ExportRow)
  | .list [.text name, .list rows] => do return (name, ← rows.mapM ofJson?)
  | _ => none

end ExportRow

namespace Database

def toJson (d : Database) : Value :=
  .object [("documents", (d.documents.map DocumentTable.toJson).getD .null),
    ("events", (d.events.map fun t => .list (t.map EventRow.toJson)).getD .null),
    ("exports", .list (d.exports.map ExportRow.tableToJson))]

/-- A table that may not be there. -/
def tableOfJson? {α : Type} (row : Value → Option α) : Option Value → Option (Option (List α))
  | some .null => some none
  | some (.list rows) => (rows.mapM row).map some
  | _ => none

def ofJson? (v : Value) : Option Database := do
  return {
    documents := ← tableOfJson? DocumentTable.rowOfJson? (v.get? "documents")
    events := ← tableOfJson? EventRow.ofJson? (v.get? "events")
    exports := (← tableOfJson? ExportRow.tableOfJson? (v.get? "exports")).getD [] }

/-- The first line of a database file. -/
def heading : String := "docfetch database 1\n"

def text (d : Database) : String := heading ++ Json.write d.toJson ++ "\n"

/-- The database in a text that starts as a database file does, and what follows it. -/
def ofText? (s : String) : Option (Database × String) := do
  let cs := s.toList
  guard (heading.toList.isPrefixOf cs)
  let (line, rest) := (cs.drop heading.length).span (· ≠ '\n')
  return (← (Json.read? (String.ofList line)).bind ofJson?, String.ofList rest.tail)

end Database

end DocFetch
