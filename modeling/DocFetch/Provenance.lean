import DocFetch.Database.Connections
import DocFetch.Log.Entry

/-! # Provenance

Where the records of a fetch came from, kept in a table of events or written to a log.
-/

namespace DocFetch.Provenance

def receiveKind : String := "RECEIVE"

/-- Where events go. -/
inductive Reporter
  | log
  | database (path : Path)
deriving DecidableEq, Repr

/-- Adds an event to the table. -/
def report (path : Path) (timestamp : String) (kind : Value) (record : Record) (location : Value) :
    Action Storage Unit :=
  Storage.session path fun d => do
    let t ← (← d.eventTable).append kind record location timestamp
    return ((), { d with events := some t })

/-- The newest events, the newest first. -/
def events (path : Path) (limit : Value) : Action Storage (List Event) :=
  Storage.transact path <| Transaction.read fun d => do
    let t ← d.eventTable
    return t.newest (← EventTable.limitOf limit)

/-- An event as a log entry. -/
def entry (kind : Value) (record : Record) (location : Value) : Log.Entry :=
  ⟨.info, "provenance_event", [("event_kind", kind), ("record_uuid", .text record.uuid),
    ("location", location), ("size", .int record.size)]⟩

end DocFetch.Provenance
