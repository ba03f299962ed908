import DocFetch.Proofs.World.Storage
import DocFetch.Provenance

/-! # Events

Reporting adds one row to the table of events of its database and changes nothing else that can be seen,
directories apart where the database is not connected yet.
-/

namespace DocFetch

/-- The tables of events. -/
def Resource.provenance : Set Resource := { x | ∃ p, x = .events p }

namespace Storage

theorem session_eq_ok {α : Type} {path : Path} {f : Database → Except Failure (α × Database)} {s s' : Storage}
    {a : α} (h : (session path f).exec s = (.ok a, s')) :
    ∃ u d d', s.Changes {.directories} u ∧ u.files.database path.resolve = .ok d ∧ f d = .ok (a, d') ∧
      s' = u.withSaved path.resolve d' := by
  unfold session transact at h
  obtain ⟨_, u, hconnect, h⟩ := Action.exec_bind_eq_ok h
  obtain ⟨_, _, hget, h⟩ := Action.exec_bind_eq_ok h
  cases hget
  obtain ⟨d, hd, h⟩ := Action.exec_ofExcept_bind_eq_ok h
  obtain ⟨_, _, hset, h⟩ := Action.exec_bind_eq_ok h
  cases hset
  rw [Action.exec_ofExcept, Prod.mk.injEq] at h
  obtain ⟨hresult, rfl⟩ := h
  obtain ⟨d', hd', hleft⟩ := Transaction.exec_save_eq_ok (Prod.ext hresult rfl)
  exact ⟨u, d, d', (moves_connect path).discard.of_exec hconnect, hd, hd',
    congrArg (u.withTransaction path.resolve) hleft⟩

end Storage

namespace Provenance

/-- The row of a record that was received. -/
def row (timestamp location : String) (record : Record) : EventRow :=
  ⟨receiveKind, record.uuid, location, Record.attributesJson record.attributes, timestamp⟩

/-- What reporting a record does to a database. -/
def reporting (timestamp location : String) (record : Record) (d : Database) : Except Failure (Unit × Database) := do
  let t ← (← d.eventTable).append (.text receiveKind) record (.text location) timestamp
  return ((), { d with events := some t })

theorem report_eq (path : Path) (timestamp location : String) (record : Record) :
    report path timestamp (.text receiveKind) record (.text location) =
      Storage.session path (reporting timestamp location record) := rfl

theorem reporting_eq {timestamp location : String} {record : Record} {d : Database} {t : EventTable}
    (h : d.events = some t) :
    reporting timestamp location record d =
      .ok ((), { d with events := some (t ++ [row timestamp location record]) }) := by
  unfold reporting
  rw [Database.eventTable, h]
  rfl

theorem reporting_eq_ok {timestamp location : String} {record : Record} {d d' : Database}
    (h : reporting timestamp location record d = .ok ((), d')) :
    ∃ t, d.events = some t ∧ d' = { d with events := some (t ++ [row timestamp location record]) } := by
  cases hevents : d.events with
  | none =>
    unfold reporting at h
    rw [Database.eventTable, hevents] at h
    cases h
  | some t =>
    rw [reporting_eq hevents] at h
    cases h
    exact ⟨t, rfl, rfl⟩

theorem reporting_changes {timestamp location : String} {record : Record} {d d' : Database} (p : Path)
    (h : reporting timestamp location record d = .ok ((), d')) : d.Changes {.events p} p d' := by
  obtain ⟨t, hevents, rfl⟩ := reporting_eq_ok h
  exact ⟨fun _ _ => rfl, fun hp => absurd rfl hp, fun _ => rfl, fun hschema => ⟨hschema.1, rfl⟩⟩

variable {path : Path} {timestamp location : String} {record : Record} {s s' : Storage}

theorem report_changes (path : Path) (timestamp location : String) (record : Record) (s : Storage) :
    s.Changes (s.sessionScope path {.events path.resolve})
      ((report path timestamp (.text receiveKind) record (.text location)).exec s).2 :=
  Storage.session_changes (fun _ _ _ h => reporting_changes path.resolve h) s

theorem report_eq_ok
    (h : (report path timestamp (.text receiveKind) record (.text location)).exec s = (.ok (), s')) :
    s'.files.eventsAt path.resolve = s.files.eventsAt path.resolve ++ [row timestamp location record] := by
  obtain ⟨u, d, _, hchanges, hd, hreporting, rfl⟩ := Storage.session_eq_ok h
  obtain ⟨t, hevents, rfl⟩ := reporting_eq_ok hreporting
  obtain ⟨hfile, hbefore⟩ := FileTree.database_eq_ok hd
  have hput := (FileTree.putDatabase_spec hfile
    { d with events := some (t ++ [row timestamp location record]) }).self
  have hu : u.files.eventsAt path.resolve = t := by
    rw [hbefore] at hevents
    unfold FileTree.eventsAt
    cases hat : u.files.databaseAt path.resolve with
    | none =>
      rw [hat] at hevents
      cases hevents
    | some d' =>
      rw [hat, Option.getD_some] at hevents
      rw [Option.bind_some, hevents, Option.getD_some]
  rw [← hchanges.files.events path.resolve (fun hmem => by cases hmem), hu, Storage.files_withSaved,
    FileTree.eventsAt, hput]
  rfl

/-- On a database that is connected, and that no other program holds, reporting never fails. -/
theorem report_of_serves (h : s.Serves path) (timestamp location : String) (record : Record) :
    ∃ s', (report path timestamp (.text receiveKind) record (.text location)).exec s = (.ok (), s') := by
  obtain ⟨⟨hhas, d, hd, -, hevents⟩, hunheld⟩ := h
  obtain ⟨n, hconnect⟩ := Storage.exec_connect_of_has hhas
  obtain ⟨t, ht⟩ := Option.isSome_iff_exists.mp hevents
  exact ⟨_, Storage.exec_session_of_unheld hconnect hd (reporting_eq ht) hunheld⟩

end Provenance

end DocFetch
