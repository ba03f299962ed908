import DocFetch.Export.Router
import DocFetch.Json.Writer
import DocFetch.World

/-! # Export to tables

One row per record, with its uuid and its JSON text. Rows show in the database when the connection is
flushed; a connection that is closed can do nothing more.
-/

namespace DocFetch.TableExport

def isName (s : String) : Bool :=
  match s.toList with
  | [] => false
  | c :: rest => (c.isAlpha || c = '_') && rest.all fun c => c.isAlphanum || c = '_'

def changeConnection (n : Nat) (f : ExportConnection → ExportConnection) : Action World Unit :=
  modify fun w => { w with exports := w.exports.modify n f }

/-- The connection of a number, if it is open. -/
def connection (n : Nat) : Action World ExportConnection := do
  match (← get).exports[n]? with
  | some c =>
    if c.isOpen then return c
    else Action.fail (.platform .sqlUsage "Cannot operate on a closed database.")
  | none => Action.fail (.fault .sqlUsage)

/-- Opens a database for output; its directory is created. -/
def connect (path : Path) : Action World Nat := do
  World.changeFiles (·.makeDirectories path.parent)
  let (place, files) ← Action.ofExcept ((← get).files.openDatabase path)
  World.setFiles files
  let n := (← get).exports.length
  modify fun w => { w with exports := w.exports ++ [{ path := place }] }
  return n

/-- Works on the database of a connection. -/
def work (path : Path) (f : Database → Except Failure Database) : Action World Unit :=
  World.changeFiles fun t => do return t.putDatabase path (← f (← t.database path))

def commit (n : Nat) : Action World Unit := do
  let c ← connection n
  unless c.pending.isEmpty do
    work c.path fun d => .ok (c.pending.foldl (fun d (name, row) => d.insertExport name row) d)
    changeConnection n fun c => { c with pending := [] }

def insert (n : Nat) (table : String) (r : Record) : Action World Unit := do
  discard <| connection n
  changeConnection n fun c => { c with pending := c.pending ++ [(table, ⟨r.uuid, Json.write r.toValue⟩)] }

def disconnect (n : Nat) : Action World Unit := do
  changeConnection n fun c => { c with isOpen := false, pending := [] }

/-- An exporter to a table, which is created; `owned` closes the connection with the exporter. -/
def openTable (n : Nat) (table : String) (owned : Bool := false) : Action World (Exporter World) := do
  unless isName table do
    Action.fail (.refused (.invalidTableName table))
  let c ← connection n
  work c.path (·.createExports table)
  return {
    write := insert n table
    flush := commit n
    close := do
      commit n
      if owned then disconnect n }

end DocFetch.TableExport
