import DocFetch.Database.Cell
import DocFetch.Json.Writer
import DocFetch.Json.Reader
import DocFetch.Record.Basic

/-! # The table of provenance events

Events are kept in the order in which they were reported, with the attributes of the record as JSON in
the order of their names.
-/

namespace DocFetch

structure EventRow where
  kind : String
  uuid : String
  location : String
  attributes : String
  timestamp : String
deriving DecidableEq, Repr

/-- An event as it is read back. -/
structure Event where
  kind : String
  uuid : String
  location : String
  attributes : Value
  timestamp : String

abbrev EventTable := List EventRow

/-- Attributes as a JSON object with sorted names. -/
def Record.attributesJson (a : Attributes) : String :=
  Json.write (Record.attributesValue (a.mergeSort fun x y => x.1 ≤ y.1))

namespace EventTable

/-- A text column takes a text or a number but has to hold something. -/
def textCell (position : Nat) (column : String) (v : Value) : Except Failure String := do
  match (← Cell.bind position v).keep .text with
  | .null => .error (.platform .sqlConstraint ("NOT NULL constraint failed: provenance_events." ++ column))
  | c => .ok c.display

def append (t : EventTable) (kind : Value) (record : Record) (location : Value) (timestamp : String) :
    Except Failure EventTable := do
  let kind ← textCell 1 "event_kind" kind
  let location ← textCell 3 "location" location
  return t ++ [⟨kind, record.uuid, location, Record.attributesJson record.attributes, timestamp⟩]

def toEvent (r : EventRow) : Event :=
  ⟨r.kind, r.uuid, r.location, (Json.read? r.attributes).getD .null, r.timestamp⟩

/-- A limit on how many rows are read. -/
def limitOf (v : Value) : Except Failure Int := do
  match (← Cell.bind 1 v).keep .integer with
  | .int n => .ok n
  | _ => .error (.platform .sqlConstraint "datatype mismatch")

/-- The newest events, the newest first; a negative limit takes all of them. -/
def newest (t : EventTable) (limit : Int) : List Event :=
  let rows := t.reverse
  (if limit < 0 then rows else rows.take limit.toNat).map toEvent

end EventTable

end DocFetch
