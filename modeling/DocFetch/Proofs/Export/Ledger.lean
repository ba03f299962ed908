import DocFetch.Export.Open
import DocFetch.Home.Layout
import DocFetch.Proofs.Export.Routing
import DocFetch.Proofs.World.Actions

/-! # Ledgers

A ledger tells what a router of a run holds at any time: what is at its destinations and what is still
pending add up to what was there before and the records routed since. Once the router is closed the
destinations hold all of it.
-/

namespace DocFetch

/-- What exporters change. -/
def Resource.outputs : Set Resource := { x |
  match x with
  | .text p => p.isLog = false
  | .table .. | .stream _ | .connection _ | .inserted .. => True
  | _ => False }

/-- The file of a channel. -/
def FileExport.place (directory : Path) (job tag : String) (ch : Channel) : Path :=
  directory.child (FileExport.fileName job ch.name tag)

/-- The database of a job. -/
def TableExport.place (directory : Path) (job : String) : Path := directory.join (.ofText (job ++ ".db"))

def TableExport.row (r : Record) : ExportRow := ⟨r.uuid, Json.write r.toValue⟩

/-- The collection of a channel. -/
def CollectionExport.place (database job : String) (ch : Channel) : String × String :=
  (database, job ++ "." ++ ch.name)

/-- What the first `n` clients inserted in a collection, as far as they are clients of one database. -/
def World.collectedByFirst (w : World) (n : Nat) (uri : String) (collection : String × String) : List Value :=
  (List.range n).flatMap fun m =>
    if (w.clients[m]?).map MongoClient.uri = some uri then w.insertedBy m collection else []

/-- What the clients of a database inserted in a collection. -/
def World.collected (w : World) (uri : String) (collection : String × String) : List Value :=
  w.collectedByFirst w.clients.length uri collection

/-- The records of a channel that are at its destination after `after` and were not there at `before`: lines
of a file, rows of a table or documents of a collection. -/
def OutputConfig.Added (c : OutputConfig) (job : String) (directory : Path) (tag : String) (before after : World)
    (ch : Channel) (records : List Record) : Prop :=
  match c.format with
  | .json =>
    let p := (FileExport.place directory job tag ch).resolve
    after.files.textAt p = before.files.textAt p ++ Text.encodeUtf8 (String.join (records.map FileExport.line))
  | .sqlite =>
    let p := (TableExport.place directory job).resolve
    (after.files.table? p ch.name).getD [] =
      (before.files.table? p ch.name).getD [] ++ records.map TableExport.row
  | .mongodb =>
    let place := CollectionExport.place c.database job ch
    after.collected (c.uri.getD "") place =
      before.collected (c.uri.getD "") place ++ records.map Record.toValue

/-- What holds of a router that was opened at `before`, whatever happens outside of `watched`. -/
structure Ledger (c : OutputConfig) (job : String) (directory : Path) (tag : String) (before : World)
    (watched : Set Resource) (r : Router World) (holds : Routed → World → Prop) : Prop where
  keeps : Router.Keeps r.exporters holds
  counts : ∀ ch, r.counts ch = 0
  stable : ∀ {l : Routed} {w w' : World} {scope : Set Resource}, holds l w → w.Changes scope w' →
    Disjoint scope watched → holds l w'
  settled : ∀ {l : Routed} {w w' : World}, holds l w → r.closing.exec w = (.ok (), w') →
    ∀ ch, c.Added job directory tag before w' ch (l ch)
  writes : ∀ {l : Routed} {w w' : World} {ch : Channel} {e : Exporter World} {record : Record}, holds l w →
    Assoc.get? ch r.exporters = some e → (e.write record).exec w = (.ok (), w') → w.Changes Resource.outputs w'
  closes : ∀ {l : Routed} {w w' : World}, holds l w → r.closing.exec w = (.ok (), w') →
    w.Changes Resource.outputs w'

theorem Ledger.mono {c : OutputConfig} {job : String} {directory : Path} {tag : String} {before : World}
    {watched watched' : Set Resource} {r : Router World} {holds : Routed → World → Prop}
    (h : Ledger c job directory tag before watched r holds) (hwatched : watched ⊆ watched') :
    Ledger c job directory tag before watched' r holds :=
  { h with stable := fun hl hchanges hdisjoint => h.stable hl hchanges (hdisjoint.mono_right hwatched) }

/-- A ledger that also tells which records are taken, as long as directories stay. -/
structure SteadyLedger (c : OutputConfig) (job : String) (directory : Path) (tag : String) (before : World)
    (accepts : Channel → Prop) (r : Router World) (holds : Routed → World → Prop) : Prop extends
    Ledger c job directory tag before (Resource.outputs ∪ {.directories}) r holds where
  takes : Router.Takes r.exporters holds accepts
  returns : ∀ {l : Routed} {w : World}, holds l w → ∃ w', r.closing.exec w = (.ok (), w')

/-! ## Opening -/

theorem get?_all_map {β : Type} (f : Channel → β) (ch : Channel) :
    Assoc.get? ch (Channel.all.map fun c => (c, f c)) = some (f ch) := by
  cases ch <;> rfl

theorem exportersFor_eq_ok {make : Channel → Action World (Exporter World)}
    {exporters : List (Channel × Exporter World)} {w w' : World}
    (h : (exportersFor make).exec w = (.ok exporters, w')) :
    ∃ e₀ e₁ e₂ e₃ w₁ w₂ w₃, (make .success).exec w = (.ok e₀, w₁) ∧ (make .original).exec w₁ = (.ok e₁, w₂) ∧
      (make .retry).exec w₂ = (.ok e₂, w₃) ∧ (make .failure).exec w₃ = (.ok e₃, w') ∧
      exporters = [(.success, e₀), (.original, e₁), (.retry, e₂), (.failure, e₃)] := by
  have hunfold : exportersFor make = (do
      let e₀ ← make .success
      let e₁ ← make .original
      let e₂ ← make .retry
      let e₃ ← make .failure
      return [(.success, e₀), (.original, e₁), (.retry, e₂), (.failure, e₃)]) := by
    simp [exportersFor, Channel.all]
  rw [hunfold] at h
  obtain ⟨e₀, w₁, h₀, h⟩ := Action.exec_bind_eq_ok h
  obtain ⟨e₁, w₂, h₁, h⟩ := Action.exec_bind_eq_ok h
  obtain ⟨e₂, w₃, h₂, h⟩ := Action.exec_bind_eq_ok h
  obtain ⟨e₃, w₄, h₃, h⟩ := Action.exec_bind_eq_ok h
  cases h
  exact ⟨e₀, e₁, e₂, e₃, w₁, w₂, w₃, h₀, h₁, h₂, h₃, rfl⟩

end DocFetch
