import DocFetch.Fetch.Basic
import DocFetch.Provenance
import DocFetch.Store.Open
import DocFetch.Store.Scripted

/-! # A bench of stores

Stores opened side by side under numbers, so that documents can be written, read and fetched from each of
them, while log entries and provenance events are kept to be looked at.
-/

namespace DocFetch

inductive BenchStore
  | memory (store : MemoryStore)
  /-- `own` holds the connections of a store that does not share those of the others. -/
  | sqlite (store : SqliteStore) (own : Option Connections)
  | mongo (client : Nat) (bucket : String) (owned : Bool)
  | scripted (store : ScriptedStore)

structure StoreBench where
  world : World := {}
  stores : List (Option BenchStore) := []
  outcomes : List FetchOutcome := []
  /-- The number of the store that was fetched from last. -/
  current : Nat := 0
  logs : List Log.Entry := []
  /-- The record and the location of every provenance event. -/
  events : List (Record × String) := []

namespace StoreBench

variable {α : Type}

def noSuchObject : Failure := .foreign "NoSuchObject" []

def onWorld (a : Action World α) : Action StoreBench α :=
  a.zoom StoreBench.world fun b world => { b with world }

def onStorage (a : Action Storage α) : Action StoreBench α := onWorld (World.onStorage a)

def setStore (n : Nat) (s : BenchStore) : Action StoreBench Unit :=
  modify fun b => { b with stores := b.stores.set n (some s) }

/-- The store of a number, if it was opened. -/
def store (n : Nat) : Action StoreBench BenchStore := do
  match (← get).stores[n]? with
  | some (some s) => return s
  | _ => Action.fail noSuchObject

/-- Works on the storage with the connections `mine`, and gives them back. -/
def withConnections (mine : Connections) (a : Action Storage α) : Action StoreBench (Except Failure α × Connections) :=
  onStorage do
    let shared := (← get).connections
    modify fun s => { s with connections := mine }
    let r ← a.attempt
    let mine := (← get).connections
    modify fun s => { s with connections := shared }
    return (r, mine)

/-- Works on the storage as the store of a number does. -/
def onSqlite (n : Nat) (s : SqliteStore) (own : Option Connections) (a : Action Storage α) :
    Action StoreBench α := do
  match own with
  | none => onStorage a
  | some mine =>
    let (r, mine) ← withConnections mine a
    setStore n (.sqlite s (some mine))
    Action.ofExcept r

def onScripted (n : Nat) (a : Action ScriptedStore α) : Action StoreBench α := do
  match ← store n with
  | .scripted s =>
    let (r, s) := a.exec s
    setStore n (.scripted s)
    Action.ofExcept r
  | _ => Action.fail (.fault .noSuchMember)

/-- The store of a number for reading. -/
def readerOf (n : Nat) : BenchStore → DocumentStore StoreBench
  | .memory m => m.reader
  | .sqlite s own =>
    { s.reader.zoom (fun b => b.world.storage) (fun b storage => { b with world := { b.world with storage } }) with
      getJson := fun id => onSqlite n s own (s.getJson id)
      getBinary := fun id => onSqlite n s own (s.getBinary id) }
  | .mongo client bucket owned =>
    let r := (OpenStore.mongo client bucket).reader.zoom StoreBench.world fun b world => { b with world }
    if owned then r else { r with close := pure () }
  | .scripted s =>
    { scheme := "stub", bucket := s.bucket
      getJson := fun id => onScripted n ((ScriptedStore.reader s.bucket).getJson id)
      getBinary := fun id => onScripted n ((ScriptedStore.reader s.bucket).getBinary id) }

/-- Opens the store of a configuration; one that is not `shared` has connections of its own. -/
def openConfigured (c : StoreConfig) (bucket : String) (base : Option Path) (shared : Bool) :
    Action StoreBench BenchStore := do
  match c.backend, shared with
  | .sqlite, false =>
    let path := c.path.getD {}
    let (r, mine) ← withConnections {} (SqliteStore.openAt ((base.map (·.anchored path)).getD path) bucket)
    return .sqlite (← Action.ofExcept r) (some mine)
  | _, _ =>
    match ← onWorld (c.openStore bucket base) with
    | .memory m => return .memory m
    | .sqlite s => return .sqlite s none
    | .mongo client bucket => return .mongo client bucket true

/-- Adds what was opened, or a gap where opening failed. -/
def add (a : Action StoreBench BenchStore) : Action StoreBench BenchStore := do
  let r ← a.attempt
  modify fun b => { b with stores := b.stores ++ [r.toOption] }
  Action.ofExcept r

def textOf : Value → Except Failure String
  | .text s => .ok s
  | _ => .error (.fault .noSuchMember)

/-- Writes a document and gives its change counter. -/
def upsert (n : Nat) (json : Bool) (id : String) (content expiry : Value) : Action StoreBench Value := do
  match ← store n, json with
  | .memory m, true =>
    let (cas, m) := m.upsertJson id (← Action.ofExcept (textOf content)) expiry
    setStore n (.memory m)
    return .int cas
  | .memory m, false =>
    let (cas, m) := m.upsertBinary id (← Action.ofExcept content.toBytes) expiry
    setStore n (.memory m)
    return .int cas
  | .sqlite s own, true =>
    let text ← Action.ofExcept (textOf content)
    onSqlite n s own (s.upsertJson id text expiry)
  | .sqlite s own, false =>
    let bytes ← Action.ofExcept content.toBytes
    onSqlite n s own (s.upsertBinary id bytes expiry)
  | _, _ => Action.fail (.fault .noSuchMember)

def remove (n : Nat) (id : String) : Action StoreBench Unit := do
  match ← store n with
  | .memory m => setStore n (.memory (← Action.ofExcept (m.remove id)))
  | _ => Action.fail (.fault .noSuchMember)

def size (n : Nat) : Action StoreBench Nat := do
  match ← store n with
  | .memory m => return m.size
  | _ => Action.fail (.fault .wrongType)

/-- Adds documents to the client of a store and sets what its look-ups end in. -/
def feed (n : Nat) (documents : List (String × List (Value × Value))) (failure : Option String) :
    Action StoreBench Unit := do
  match ← store n with
  | .mongo client _ _ => onWorld (World.changeClient client fun c =>
      { c with documents := Assoc.merge c.documents documents, failure })
  | _ => Action.fail (.fault .noSuchMember)

/-- A fetcher on the store of a number that keeps what it logs and reports. -/
def fetcher (n : Nat) (config : FetchConfig) (resolver : Resolver) (uuid : Nat → String) :
    Action StoreBench (Fetcher StoreBench) := do
  return {
    config, resolver
    store := readerOf n (← store n)
    draw := fun b => let (u, world) := World.draw uuid b.world; (u, { b with world })
    receive := fun r location => modify fun b => { b with events := b.events ++ [(r, location)] }
    log := fun e => modify fun b => { b with logs := b.logs ++ [e] } }

/-- Fetches from the store of a number with nothing kept of what was logged and reported before. -/
def fetch (n : Nat) (f : Fetcher StoreBench) (record : Option Record) : Action StoreBench FetchOutcome := do
  modify fun b => { b with logs := [], events := [], current := n }
  let o ← f.fetch record
  modify fun b => { b with outcomes := b.outcomes ++ [o] }
  return o

/-- The record of a transfer of an earlier fetch. -/
def transferred (fetch transfer : Nat) : Action StoreBench Record := do
  match (← get).outcomes[fetch]? with
  | some o =>
    match o.transfers[transfer]? with
    | some t => return t.record
    | none => Action.fail noSuchObject
  | none => Action.fail noSuchObject

end StoreBench

end DocFetch
