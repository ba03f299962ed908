import DocFetch.Config.Basic
import DocFetch.Store.Memory
import DocFetch.Store.Sqlite
import DocFetch.World

/-! # Opening the store of a job -/

namespace DocFetch

/-- A store that was opened; a document database is reached by the client of a number. -/
inductive OpenStore
  | memory (store : MemoryStore)
  | sqlite (store : SqliteStore)
  | mongo (client : Nat) (bucket : String)

/-- Opens the store that a configuration describes; `base` is where its paths start. -/
def StoreConfig.openStore (c : StoreConfig) (bucket : String) (base : Option Path) : Action World OpenStore := do
  match c.backend with
  | .memory => return .memory { bucket }
  | .sqlite =>
    let path := c.path.getD {}
    return .sqlite (← World.onStorage (SqliteStore.openAt ((base.map (·.anchored path)).getD path) bucket))
  | .mongodb =>
    let n ← World.newClient (c.uri.getD "")
    World.changeClient n (·.access c.database bucket)
    return .mongo n bucket

/-- The store for reading; closing it closes a client of its own. -/
def OpenStore.reader : OpenStore → DocumentStore World
  | memory m => m.reader
  | sqlite s => s.reader.zoom World.storage fun w storage => { w with storage }
  | mongo n bucket => Mongo.reader bucket (World.find n) (World.changeClient n MongoClient.close)

end DocFetch
