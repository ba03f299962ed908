import DocFetch.Database.Connections
import DocFetch.Store.Mongo

/-! # What jobs act on

Files and databases, clients of document databases, open outputs, and the count of the uuids drawn.
-/

namespace DocFetch

/-- A file open for writing at its end; what is written shows in the file once it is flushed. -/
structure Stream where
  path : Path
  isOpen : Bool := false
  pending : String := ""

/-- A connection for exported records; the rows inserted show in the database once they are committed. -/
structure ExportConnection where
  path : Path
  isOpen : Bool := true
  pending : List (String × ExportRow) := []

structure World where
  storage : Storage := {}
  clients : List MongoClient := []
  /-- The error in which inserting into a document database ends, by its URI. -/
  refusal : String → Option String := fun _ => none
  streams : List Stream := []
  exports : List ExportConnection := []
  drawn : Nat := 0

namespace World

/-- A new uuid. -/
def draw (uuid : Nat → String) : StateM World String := fun w =>
  (uuid (w.drawn + 1), { w with drawn := w.drawn + 1 })

def onStorage {α : Type} (a : Action Storage α) : Action World α :=
  a.zoom World.storage fun w storage => { w with storage }

def files (w : World) : FileTree := w.storage.files

def setFiles (files : FileTree) : Action World Unit :=
  modify fun w => { w with storage := { w.storage with files } }

/-- Changes the files, or fails. -/
def changeFiles (f : FileTree → Except Failure FileTree) : Action World Unit := do
  setFiles (← Action.ofExcept (f (← get).files))

/-- A new client of a document database. -/
def newClient (uri : String) : Action World Nat := do
  let n := (← get).clients.length
  modify fun w => { w with clients := w.clients ++ [{ uri }] }
  return n

def changeClient (n : Nat) (f : MongoClient → MongoClient) : Action World Unit :=
  modify fun w => { w with clients := w.clients.modify n f }

/-- Inserts a document by the client of a number, unless its database refuses. -/
def insert (n : Nat) (database collection : String) (document : Value) : Action World Unit := do
  let w ← get
  match (w.clients[n]?).bind fun c => w.refusal c.uri with
  | some e => Action.fail (.foreign "PyMongoError" [.text e])
  | none => changeClient n (·.insert database collection document)

/-- Looks a document up by the client of a number. -/
def find (n : Nat) (id : String) : StateM World (Except String (Option (List (Value × Value)))) := fun w =>
  (match w.clients[n]? with
    | some c => c.find id
    | none => .ok none, w)

end World

end DocFetch
