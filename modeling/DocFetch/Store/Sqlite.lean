import DocFetch.Database.Connections
import DocFetch.Store.Basic

/-! # Documents in a database file

The rows of one bucket in the table of documents. Whatever the database reports is a failed connection of
the store.
-/

namespace DocFetch

structure SqliteStore where
  path : Path
  bucket : String := "default"
deriving DecidableEq, Repr

namespace SqliteStore

/-- Whether a failure is one that the database reports. -/
def isReported : Failure → Bool
  | .platform fault _ => fault.isSql
  | _ => false

/-- Turns what the database reports into a failed connection. -/
def asConnection {α : Type} (doing : String) (a : Action Storage α) : Action Storage α := do
  match ← a.attempt with
  | .ok v => return v
  | .error f =>
    if isReported f then Action.fail (.fetch (.say .connection (doing ++ ": " ++ f.message)))
    else Action.fail f

/-- Opens the store, which opens the database at its path. -/
def openAt (path : Path) (bucket : String := "default") : Action Storage SqliteStore := do
  discard <| asConnection ("Cannot open SQLite store " ++ path.text) (Storage.connect path)
  return { path, bucket }

def upsert (s : SqliteStore) (id kind : String) (content : ByteArray) (expiry : Value) : Action Storage Value :=
  asConnection ("Writing " ++ Text.quoted id ++ " to " ++ s.path.text ++ " failed") <|
    Storage.session s.path fun d => do
      let (cas, t) ← (← d.documentTable).upsert s.bucket id kind content expiry
      return (cas, { d with documents := some t })

/-- Puts a text document in place of one that is there and gives the count of its writes. -/
def upsertJson (s : SqliteStore) (id content : String) (expiry : Value := .int 0) : Action Storage Value :=
  s.upsert id "json" (Text.encodeUtf8 content) expiry

def upsertBinary (s : SqliteStore) (id : String) (content : ByteArray) (expiry : Value := .int 0) :
    Action Storage Value :=
  s.upsert id "binary" content expiry

def row (s : SqliteStore) (id : String) : Action Storage DocumentRow := do
  let found ← asConnection ("Reading " ++ Text.quoted id ++ " from " ++ s.path.text ++ " failed") <|
    Storage.transact s.path <| Transaction.read fun d => do return (← d.documentTable).lookup s.bucket id
  match found with
  | some r => return r
  | none => Action.fail (missingFrom s.bucket id)

def getJson (s : SqliteStore) (id : String) : Action Storage (Document String) := do
  Action.ofExcept ((← s.row id).readText id)

def getBinary (s : SqliteStore) (id : String) : Action Storage (Document ByteArray) := do
  Action.ofExcept ((← s.row id).readBytes id)

/-- The store for reading. -/
def reader (s : SqliteStore) : DocumentStore Storage where
  scheme := "sqlite"
  bucket := s.bucket
  getJson := s.getJson
  getBinary := s.getBinary

end SqliteStore

end DocFetch
