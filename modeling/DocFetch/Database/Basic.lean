import DocFetch.Database.Documents
import DocFetch.Database.Events

/-! # Databases

A database file may hold the tables of documents and events, and tables of exported records under names of
their own. The names of tables are the same in any case.
-/

namespace DocFetch

/-- A record as a row: its uuid and its JSON text. Rows are numbered from 1. -/
structure ExportRow where
  uuid : String
  payload : String
deriving DecidableEq, Repr

structure Database where
  documents : Option DocumentTable := none
  events : Option EventTable := none
  exports : List (String × List ExportRow) := []

namespace Database

/-- A database has the tables that every connection prepares. -/
def HasSchema (d : Database) : Prop := d.documents.isSome = true ∧ d.events.isSome = true

instance (d : Database) : Decidable d.HasSchema := inferInstanceAs (Decidable (_ ∧ _))

/-- The database with the tables of documents and events. -/
def withSchema (d : Database) : Database :=
  { d with documents := some (d.documents.getD []), events := some (d.events.getD []) }

def noSuchTable (name : String) : Failure := .platform .sqlOperation ("no such table: " ++ name)

def documentTable (d : Database) : Except Failure DocumentTable :=
  match d.documents with
  | some t => .ok t
  | none => .error (noSuchTable "documents")

def eventTable (d : Database) : Except Failure EventTable :=
  match d.events with
  | some t => .ok t
  | none => .error (noSuchTable "provenance_events")

/-- The words of the query language that name no table. -/
def reservedWords : List String :=
  ["add", "all", "alter", "and", "as", "autoincrement", "between", "case", "check", "collate", "commit",
    "constraint", "create", "default", "deferrable", "delete", "distinct", "drop", "else", "escape",
    "except", "exists", "foreign", "from", "group", "having", "if", "in", "index", "insert", "intersect",
    "into", "is", "isnull", "join", "limit", "not", "nothing", "notnull", "null", "on", "or", "order",
    "primary", "references", "returning", "select", "set", "table", "then", "to", "transaction", "union",
    "unique", "update", "using", "values", "when", "where"]

/-- Whether a table can be created under a name of letters, digits and low lines. -/
def canCreate (name : String) : Bool :=
  let lower := name.toLower
  !reservedWords.contains lower && !"sqlite_".toList.isPrefixOf lower.toList

def sameName (a b : String) : Bool := a.toLower = b.toLower

/-- The database with a table for exported records, unless there is one by that name. -/
def createExports (d : Database) (name : String) : Except Failure Database :=
  if ¬canCreate name then .error (.fault .sqlOperation)
  else if d.exports.any fun t => sameName t.1 name then .ok d
  else .ok { d with exports := d.exports ++ [(name, [])] }

/-- The database with a row at the end of a table. -/
def insertExport (d : Database) (name : String) (row : ExportRow) : Database :=
  { d with exports := d.exports.map fun t => if sameName t.1 name then (t.1, t.2 ++ [row]) else t }

end Database

end DocFetch
