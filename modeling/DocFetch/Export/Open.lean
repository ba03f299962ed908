import DocFetch.Config.Basic
import DocFetch.Export.Files
import DocFetch.Export.Tables

/-! # Opening the output of a job

One exporter per channel: files of a run, tables of one database per job, or collections of one client.
-/

namespace DocFetch

namespace CollectionExport

/-- An exporter to a collection; `owned` closes the client with the exporter. -/
def openCollection (client : Nat) (database collection : String) (owned : Bool := false) :
    Action World (Exporter World) := do
  World.changeClient client (·.access database collection)
  return {
    write := fun r => World.insert client database collection r.toValue
    flush := pure ()
    close := if owned then World.changeClient client MongoClient.close else pure () }

end CollectionExport

/-- An exporter for every channel. -/
def exportersFor (make : Channel → Action World (Exporter World)) :
    Action World (List (Channel × Exporter World)) :=
  Channel.all.mapM fun c => do return (c, ← make c)

/-- The router of a run. -/
def OutputConfig.openRouter (c : OutputConfig) (job : String) (directory : Path) (tag : String) :
    Action World (Router World) := do
  match c.format with
  | .json => return { exporters := ← exportersFor fun ch => FileExport.openAt directory job ch.name tag }
  | .sqlite =>
    let n ← TableExport.connect (directory.join (.ofText (job ++ ".db")))
    return {
      exporters := ← exportersFor fun ch => TableExport.openTable n ch.name
      release := [TableExport.disconnect n] }
  | .mongodb =>
    let n ← World.newClient (c.uri.getD "")
    return {
      exporters := ← exportersFor fun ch =>
        CollectionExport.openCollection n c.database (job ++ "." ++ ch.name)
      release := [World.changeClient n MongoClient.close] }

/-- The failure of an output whose format goes by a name that is no format. -/
def unknownFormat (name : String) : Failure := .refused (.unknownFormat name)

end DocFetch
