import DocFetch.Proofs.Record.Reading
import DocFetch.Proofs.Store.Sqlite
import DocFetch.Proofs.World.Events
import Mathlib.Data.List.Forall2

/-! # Events beside documents

Events are reported to a file that also holds documents. However reports, reads and writes follow each other and
connections are closed in between, the newest events are those reported last, and the documents are what the calls to
their stores alone make of them.
-/

namespace DocFetch

/-! ## The tables of a file -/

namespace Storage

/-- The documents and events in a file that can be opened again, where all is committed and no other program holds a
file. -/
structure Tabled (s : Storage) (file : Path) (documents : DocumentTable) (events : EventTable) : Prop where
  quiet : s.Quiet
  reopens : s.files.Reopens file
  documents : s.files.documentsAt file = documents
  events : s.files.eventsAt file = events

variable {α : Type} {s s' : Storage} {path file : Path} {documents documents' : DocumentTable}
  {events events' : EventTable}

namespace Tabled

theorem of_changes (h : s.Tabled file documents events) (hchanges : s.Changes ∅ s') :
    s'.Tabled file documents events where
  quiet := hchanges.quiet h.quiet
  reopens := h.reopens.changes hchanges.files (Set.notMem_empty _)
  documents := (hchanges.files.documents file (Set.notMem_empty _)).trans h.documents
  events := (hchanges.files.events file (Set.notMem_empty _)).trans h.events

theorem withSaved {d : Database} (h : s.Tabled file documents events) (hdocuments : d.documents = some documents')
    (hevents : d.events = some events') : (s.withSaved file d).Tabled file documents' events' := by
  obtain ⟨before, hbefore, -⟩ := h.reopens.schema
  have hput := FileTree.putDatabase_spec (FileTree.database_eq_ok (FileTree.database_of_databaseAt hbefore)).1 d
  have hschema : (s.files.putDatabase file d).HasSchema file :=
    ⟨d, hput.self, by rw [hdocuments]; rfl, by rw [hevents]; rfl⟩
  refine ⟨⟨?_, h.quiet.holds⟩, h.reopens.mono (fun q hq => ?_) hschema, ?_, ?_⟩
  · rw [Storage.withSaved, h.quiet.uncommitted]
    rfl
  · rwa [files_withSaved, hput.directory]
  · rw [files_withSaved, FileTree.documentsAt, hput.self, Option.bind_some, hdocuments, Option.getD_some]
  · rw [files_withSaved, FileTree.eventsAt, hput.self, Option.bind_some, hevents, Option.getD_some]

theorem closeAll (h : s.Tabled file documents events) : s.closeAll.Tabled file documents events := by
  rw [h.quiet.closeAll]
  exact ⟨⟨h.quiet.uncommitted, h.quiet.holds⟩, h.reopens, h.documents, h.events⟩

end Tabled

theorem exec_connect_of_tabled (h : s.Tabled path.resolve documents events) :
    ∃ n s', (connect path).exec s = (.ok n, s') ∧ s'.Tabled path.resolve documents events := by
  obtain ⟨n, s', hconnect, hchanges, -⟩ := connect_of_reopens h.reopens
  exact ⟨n, s', hconnect, h.of_changes hchanges⟩

theorem tabled_of_connect {files : FileTree} {n : Nat} (h : (connect path).exec { files } = (.ok n, s)) :
    s.Tabled path.resolve (files.documentsAt path.resolve) (files.eventsAt path.resolve) where
  quiet := ((moves_connect path).of_exec h).quiet ⟨rfl, rfl⟩
  reopens := reopens_of_connect h
  documents := ((moves_connect path).of_exec h).files.documents _ (by simp)
  events := ((moves_connect path).of_exec h).files.events _ (by simp)

theorem exists_database_of_tabled (h : s.Tabled path.resolve documents events) :
    ∃ n u d, (connect path).exec s = (.ok n, u) ∧ u.Tabled path.resolve documents events ∧
      u.files.databaseAt path.resolve = some d ∧ d.documents = some documents ∧ d.events = some events := by
  obtain ⟨n, u, hconnect, hchanges, -, d, hd, hdocuments, hevents⟩ := connect_of_reopens h.reopens
  have hu := h.of_changes hchanges
  refine ⟨n, u, d, hconnect, hu, hd, ?_, ?_⟩
  · obtain ⟨t, ht⟩ := Option.isSome_iff_exists.mp hdocuments
    rw [← hu.documents, FileTree.documentsAt, hd, Option.bind_some, ht, Option.getD_some]
  · obtain ⟨t, ht⟩ := Option.isSome_iff_exists.mp hevents
    rw [← hu.events, FileTree.eventsAt, hd, Option.bind_some, ht, Option.getD_some]

theorem exec_save_of_tabled {f : Database → Except Failure (α × Database)} {a : α}
    (h : s.Tabled path.resolve documents events)
    (hf : ∀ d, d.documents = some documents → d.events = some events →
      ∃ d', f d = .ok (a, d') ∧ d'.documents = some documents' ∧ d'.events = some events') :
    ∃ s', (session path f).exec s = (.ok a, s') ∧ s'.Tabled path.resolve documents' events' := by
  obtain ⟨n, u, d, hconnect, hu, hd, hdocuments, hevents⟩ := exists_database_of_tabled h
  obtain ⟨d', hd', hdocuments', hevents'⟩ := hf d hdocuments hevents
  exact ⟨_, exec_session_of_unheld hconnect hd hd' (hu.quiet.unheld _), hu.withSaved hdocuments' hevents'⟩

theorem exec_save_of_tabled_error {f : Database → Except Failure (α × Database)} {e : Failure}
    (h : s.Tabled path.resolve documents events)
    (hf : ∀ d, d.documents = some documents → d.events = some events → f d = .error e) :
    ∃ s', (session path f).exec s = (.error e, s') ∧ s'.Tabled path.resolve documents events := by
  obtain ⟨n, u, d, hconnect, hu, hd, hdocuments, hevents⟩ := exists_database_of_tabled h
  exact ⟨u, exec_session_of_error hconnect hd (hf d hdocuments hevents), hu⟩

theorem exec_read_of_tabled {g : Database → Except Failure α} {r : Except Failure α}
    (h : s.Tabled path.resolve documents events)
    (hg : ∀ d, d.documents = some documents → d.events = some events → g d = r) :
    ∃ s', (transact path (Transaction.read g)).exec s = (r, s') ∧ s'.Tabled path.resolve documents events := by
  obtain ⟨n, u, d, hconnect, hu, hd, hdocuments, hevents⟩ := exists_database_of_tabled h
  refine ⟨u, ?_, hu⟩
  rw [exec_transact_of_connect hconnect hd, Transaction.exec_read, withTransaction_transaction hd]
  exact congrArg (·, u) (hg d hdocuments hevents)

end Storage

/-! ## Calls to stores -/

namespace SqliteStore

variable {file : Path} {s : Storage} {documents : DocumentTable} {events : EventTable}

inductive DocumentCall
  | openAt (path : Path) (bucket : String)
  | upsertJson (store : SqliteStore) (id content : String) (expiry : Value)
  | upsertBinary (store : SqliteStore) (id : String) (content : ByteArray) (expiry : Value)
  | getJson (store : SqliteStore) (id : String)
  | getBinary (store : SqliteStore) (id : String)

/-- How a call ended, as a value. -/
inductive DocumentAnswer
  | store (r : Except Failure SqliteStore)
  | count (r : Except Failure Value)
  | text (r : Except Failure (Document String))
  | bytes (r : Except Failure (Document ByteArray))

namespace DocumentCall

def perform : DocumentCall → Action Storage DocumentAnswer
  | openAt path bucket => return .store (← (SqliteStore.openAt path bucket).attempt)
  | upsertJson store id content expiry => return .count (← (store.upsertJson id content expiry).attempt)
  | upsertBinary store id content expiry => return .count (← (store.upsertBinary id content expiry).attempt)
  | getJson store id => return .text (← (store.getJson id).attempt)
  | getBinary store id => return .bytes (← (store.getBinary id).attempt)

def path : DocumentCall → Path
  | openAt path _ => path
  | upsertJson store .. => store.path
  | upsertBinary store .. => store.path
  | getJson store _ => store.path
  | getBinary store _ => store.path

end DocumentCall

theorem exec_upsert_of_tabled (store : SqliteStore) (id kind : String) (content : ByteArray) (expiry : Value)
    (documents : DocumentTable) :
    ∃ r documents', ∀ {s : Storage} {events : EventTable}, s.Tabled store.path.resolve documents events →
      ∃ s', (store.upsert id kind content expiry).exec s = (r, s') ∧
        s'.Tabled store.path.resolve documents' events := by
  obtain ⟨doing, hupsert⟩ := store.upsert_eq id kind content expiry
  rcases hwrite : documents.upsert store.bucket id kind content expiry with e | ⟨cas, t⟩
  · refine ⟨.error (connectionFailure doing e), documents, fun {s events} h => ?_⟩
    have hwork (d : Database) (hd : d.documents = some documents) (_ : d.events = some events) :
        store.upserting id kind content expiry d = .error e := by
      rw [store.upserting_of_table id kind content expiry hd, hwrite]
      rfl
    obtain ⟨s', hexec, htabled⟩ := Storage.exec_save_of_tabled_error h hwork
    refine ⟨s', ?_, htabled⟩
    rw [hupsert, exec_asConnection, hexec]
    rfl
  · refine ⟨.ok cas, t, fun {s events} h => ?_⟩
    have hwork (d : Database) (hd : d.documents = some documents) (he : d.events = some events) :
        ∃ d', store.upserting id kind content expiry d = .ok (cas, d') ∧ d'.documents = some t ∧
          d'.events = some events := by
      rw [store.upserting_of_table id kind content expiry hd, hwrite]
      exact ⟨_, rfl, rfl, he⟩
    obtain ⟨s', hexec, htabled⟩ := Storage.exec_save_of_tabled h hwork
    refine ⟨s', ?_, htabled⟩
    rw [hupsert, exec_asConnection, hexec]
    rfl

theorem exec_read_of_tabled {α : Type} (store : SqliteStore) (id : String) (g : DocumentRow → Except Failure α)
    (h : s.Tabled store.path.resolve documents events) :
    ∃ s', (store.row id >>= fun r => Action.ofExcept (g r)).exec s = (store.rowIn documents id >>= g, s') ∧
      s'.Tabled store.path.resolve documents events := by
  obtain ⟨s', hexec, hchanges⟩ := store.exec_row_bind_of_reopens h.reopens id g
  rw [h.documents] at hexec
  exact ⟨s', hexec, h.of_changes hchanges⟩

/-- How a call ends, and what it leaves of the documents, is settled by the documents alone. -/
theorem DocumentCall.settled (c : DocumentCall) (documents : DocumentTable) :
    ∃ answer documents', ∀ {s : Storage} {events : EventTable}, s.Tabled c.path.resolve documents events →
      ∃ s', c.perform.exec s = (.ok answer, s') ∧ s'.Tabled c.path.resolve documents' events := by
  cases c with
  | openAt path bucket =>
    refine ⟨.store (.ok { path, bucket }), documents, fun {s events} h => ?_⟩
    obtain ⟨s', hexec, hchanges⟩ := exec_openAt_of_reopens h.reopens bucket
    exact ⟨s', Action.exec_attempt_bind_pure hexec _, h.of_changes hchanges⟩
  | upsertJson store id content expiry =>
    obtain ⟨r, documents', hupsert⟩ :=
      store.exec_upsert_of_tabled id "json" (Text.encodeUtf8 content) expiry documents
    refine ⟨.count r, documents', fun {s events} h => ?_⟩
    obtain ⟨s', hexec, htabled⟩ := hupsert h
    exact ⟨s', Action.exec_attempt_bind_pure hexec _, htabled⟩
  | upsertBinary store id content expiry =>
    obtain ⟨r, documents', hupsert⟩ := store.exec_upsert_of_tabled id "binary" content expiry documents
    refine ⟨.count r, documents', fun {s events} h => ?_⟩
    obtain ⟨s', hexec, htabled⟩ := hupsert h
    exact ⟨s', Action.exec_attempt_bind_pure hexec _, htabled⟩
  | getJson store id =>
    refine ⟨.text (store.rowIn documents id >>= fun r => r.readText id), documents, fun {s events} h => ?_⟩
    obtain ⟨s', hexec, htabled⟩ := store.exec_read_of_tabled id (fun r => r.readText id) h
    exact ⟨s', Action.exec_attempt_bind_pure hexec _, htabled⟩
  | getBinary store id =>
    refine ⟨.bytes (store.rowIn documents id >>= fun r => r.readBytes id), documents, fun {s events} h => ?_⟩
    obtain ⟨s', hexec, htabled⟩ := store.exec_read_of_tabled id (fun r => r.readBytes id) h
    exact ⟨s', Action.exec_attempt_bind_pure hexec _, htabled⟩

end SqliteStore

/-! ## Calls to reporters -/

/-- What is reported of a record; the kind is `Provenance.receiveKind` where it was received. -/
structure Report where
  timestamp : String
  kind : String
  record : Record
  location : String

/-- An event that tells what was reported. It has the attributes of the record, in any order. -/
structure Event.Tells (e : Event) (r : Report) : Prop where
  kind : e.kind = r.kind
  uuid : e.uuid = r.record.uuid
  location : e.location = r.location
  timestamp : e.timestamp = r.timestamp
  attributes : ∃ a : Attributes, a.Perm r.record.attributes ∧ e.attributes = Record.attributesValue a

namespace Report

/-- The row of a report. -/
def row (r : Report) : EventRow :=
  ⟨r.kind, r.record.uuid, r.location, Record.attributesJson r.record.attributes, r.timestamp⟩

theorem tells_row {r : Report} (h : r.record.names.Nodup) : (EventTable.toEvent r.row).Tells r where
  kind := rfl
  uuid := rfl
  location := rfl
  timestamp := rfl
  attributes := by
    obtain ⟨sorted, hperm, hread⟩ := Record.read?_attributesJson h
    refine ⟨sorted, hperm, ?_⟩
    change (Json.read? (Record.attributesJson r.record.attributes)).getD .null = _
    rw [hread, Option.getD_some]

end Report

namespace Provenance

open SqliteStore (DocumentCall DocumentAnswer)

variable {file path : Path} {s u : Storage} {documents : DocumentTable} {events : EventTable}

/-- How many of `n` events a limit lets through. -/
def passing (limit : Int) (n : Nat) : Nat := if limit < 0 then n else min limit.toNat n

theorem passing_le (limit : Int) (n : Nat) : passing limit n ≤ n := by
  unfold passing
  split
  · exact le_refl n
  · exact Nat.min_le_right _ n

theorem newest_eq (t : EventTable) (limit : Int) :
    t.newest limit = (t.reverse.take (passing limit t.length)).map EventTable.toEvent := by
  unfold EventTable.newest passing
  dsimp only
  split
  · rw [← List.length_reverse, List.take_length]
  · rw [← List.length_reverse, ← List.take_eq_take_min]

theorem exec_report_of_tabled (h : s.Tabled path.resolve documents events) (r : Report) :
    ∃ s', (report path r.timestamp (.text r.kind) r.record (.text r.location)).exec s = (.ok (), s') ∧
      s'.Tabled path.resolve documents (events ++ [r.row]) := by
  refine Storage.exec_save_of_tabled h fun d hdocuments hevents => ?_
  refine ⟨{ d with events := some (events ++ [r.row]) }, ?_, hdocuments, rfl⟩
  rw [Database.eventTable, hevents]
  rfl

theorem exec_events_of_tabled (h : s.Tabled path.resolve documents events) (limit : Int) :
    ∃ s', (Provenance.events path (.int limit)).exec s =
        (if Cell.fitsInt64 limit then .ok (events.newest limit) else .error (.fault .overflow), s') ∧
      s'.Tabled path.resolve documents events := by
  refine Storage.exec_read_of_tabled h fun d _ hevents => ?_
  rw [Database.eventTable, hevents]
  change (EventTable.limitOf (.int limit) >>= fun n => pure (events.newest n)) = _
  rw [EventTable.limitOf, Cell.bind]
  split
  · rfl
  · rfl

/-- What is done to reporters and stores on one file, and to their connection. -/
inductive Call
  | connect (path : Path)
  | report (path : Path) (r : Report)
  | events (path : Path) (limit : Int)
  | document (c : DocumentCall)
  | closeAll

/-- How a call ended, as a value. -/
inductive Answer
  | done (r : Except Failure Unit)
  | events (r : Except Failure (List Event))
  | document (a : DocumentAnswer)

def Answer.documentAnswers : Answer → List DocumentAnswer
  | document a => [a]
  | done _ | .events _ => []

namespace Call

def perform : Call → Action Storage Answer
  | connect path => return .done (← (discard (Storage.connect path)).attempt)
  | report path r =>
    return .done (← (Provenance.report path r.timestamp (.text r.kind) r.record (.text r.location)).attempt)
  | .events path limit => return .events (← (Provenance.events path (.int limit)).attempt)
  | document c => return .document (← c.perform)
  | closeAll => do
    modify Storage.closeAll
    return .done (.ok ())

/-- Whether a call works on a file, with a record that has one value to a name. -/
def On (file : Path) : Call → Prop
  | connect path => path.resolve = file
  | report path r => path.resolve = file ∧ r.record.names.Nodup
  | .events path _ => path.resolve = file
  | document c => c.path.resolve = file
  | closeAll => True

def reports : Call → List Report
  | report _ r => [r]
  | connect _ | .events .. | document _ | closeAll => []

def documentCalls : Call → List DocumentCall
  | document c => [c]
  | connect _ | report .. | .events .. | closeAll => []

end Call

/-- What calls report, in order. -/
def reportsOf (calls : List Call) : List Report := calls.flatMap Call.reports

/-- What the reports before a call settle of its answer. -/
inductive Answered (reports : List Report) : Call → Answer → Prop
  | connect (path : Path) : Answered reports (.connect path) (.done (.ok ()))
  | report (path : Path) (r : Report) : Answered reports (.report path r) (.done (.ok ()))
  | events (path : Path) {limit : Int} {es : List Event} (hfits : Cell.fitsInt64 limit = true)
      (htell : List.Forall₂ Event.Tells es (reports.reverse.take (passing limit reports.length))) :
      Answered reports (.events path limit) (.events (.ok es))
  | overflow (path : Path) {limit : Int} (hfits : Cell.fitsInt64 limit = false) :
      Answered reports (.events path limit) (.events (.error (.fault .overflow)))
  | document (c : DocumentCall) (a : DocumentAnswer) : Answered reports (.document c) (.document a)
  | closeAll : Answered reports .closeAll (.done (.ok ()))

variable {calls done : List Call} {c : Call}

theorem reportsOf_concat (calls : List Call) (c : Call) : reportsOf (calls ++ [c]) = reportsOf calls ++ c.reports := by
  simp [reportsOf]

theorem forall₂_newest {reports : List Report} (h : ∀ r ∈ reports, r.record.names.Nodup) (limit : Int) :
    List.Forall₂ Event.Tells (EventTable.newest (reports.map Report.row) limit)
      (reports.reverse.take (passing limit reports.length)) := by
  rw [newest_eq, List.length_map, ← List.map_reverse, ← List.map_take, List.map_map, List.forall₂_map_left_iff,
    List.forall₂_same]
  intro r hr
  exact Report.tells_row (h r (List.mem_reverse.mp (List.mem_of_mem_take hr)))

/-- A file after calls, beside one after the calls to stores among them: the first holds what was reported, and both
hold the same documents. -/
structure Beside (file : Path) (done : List Call) (s u : Storage) : Prop where
  names : ∀ r ∈ reportsOf done, r.record.names.Nodup
  tables : ∃ documents events, s.Tabled file documents ((reportsOf done).map Report.row) ∧
    u.Tabled file documents events

namespace Beside

theorem concat (h : Beside file done s u) (hc : c.On file) : ∀ r ∈ reportsOf (done ++ [c]), r.record.names.Nodup := by
  intro r hr
  rw [reportsOf_concat, List.mem_append] at hr
  rcases hr with hdone | hlast
  · exact h.names r hdone
  · cases c with
    | report path r' =>
      rw [Call.reports, List.mem_singleton] at hlast
      rw [hlast]
      exact hc.2
    | connect | events | document | closeAll => cases hlast

/-- One call: its answer is settled by the reports before it, or that of the store by the documents. -/
theorem perform (h : Beside file done s u) (hc : c.On file) :
    ∃ a s' u', c.perform.exec s = (.ok a, s') ∧
      (c.documentCalls.mapM DocumentCall.perform).exec u = (.ok a.documentAnswers, u') ∧
      Answered (reportsOf done) c a ∧ Beside file (done ++ [c]) s' u' := by
  obtain ⟨documents, events, hs, hu⟩ := h.tables
  have hrows : (reportsOf (done ++ [c])).map Report.row =
      (reportsOf done).map Report.row ++ c.reports.map Report.row := by
    rw [reportsOf_concat, List.map_append]
  cases c with
  | connect path =>
    obtain rfl : path.resolve = file := hc
    obtain ⟨n, s', hconnect, hs'⟩ := Storage.exec_connect_of_tabled hs
    have hdiscard : (discard (Storage.connect path)).exec s = (.ok (), s') := by
      rw [Action.exec_discard, hconnect]
      rfl
    exact ⟨_, s', u, Action.exec_attempt_bind_pure hdiscard _, rfl, .connect path, h.concat rfl, documents, events, by
      rwa [hrows, Call.reports, List.map_nil, List.append_nil], hu⟩
  | report path r =>
    have hfile : path.resolve = file := hc.1
    subst hfile
    obtain ⟨s', hreport, hs'⟩ := exec_report_of_tabled hs r
    exact ⟨_, s', u, Action.exec_attempt_bind_pure hreport _, rfl, .report path r, h.concat hc, documents, events,
      by rwa [hrows], hu⟩
  | events path limit =>
    obtain rfl : path.resolve = file := hc
    obtain ⟨s', hevents, hs'⟩ := exec_events_of_tabled hs limit
    refine ⟨_, s', u, Action.exec_attempt_bind_pure hevents _, rfl, ?_, h.concat rfl, documents, events, by
      rwa [hrows, Call.reports, List.map_nil, List.append_nil], hu⟩
    cases hfits : Cell.fitsInt64 limit with
    | true => exact .events path hfits (forall₂_newest h.names limit)
    | false => exact .overflow path hfits
  | document c =>
    obtain rfl : c.path.resolve = file := hc
    obtain ⟨a, documents', hsettled⟩ := c.settled documents
    obtain ⟨s', hperform, hs'⟩ := hsettled hs
    obtain ⟨u', halone, hu'⟩ := hsettled hu
    refine ⟨.document a, s', u', ?_, ?_, .document c a, h.concat rfl, documents', events, by
      rwa [hrows, Call.reports, List.map_nil, List.append_nil], hu'⟩
    · exact Action.exec_bind_ok hperform _
    · rw [Call.documentCalls, List.mapM_cons, Action.exec_bind_ok halone]
      rfl
  | closeAll =>
    exact ⟨_, s.closeAll, u, rfl, rfl, .closeAll, h.concat trivial, documents, events, by
      rw [hrows, Call.reports, List.map_nil, List.append_nil]; exact hs.closeAll, hu⟩

theorem performAll (h : Beside file done s u) (hon : ∀ c ∈ calls, c.On file) :
    ∃ answers s' u', (calls.mapM Call.perform).exec s = (.ok answers, s') ∧
      ((calls.flatMap Call.documentCalls).mapM DocumentCall.perform).exec u =
        (.ok (answers.flatMap Answer.documentAnswers), u') ∧
      Beside file (done ++ calls) s' u' ∧ answers.length = calls.length ∧
      ∀ before c after, calls = before ++ c :: after →
        ∃ a, answers[before.length]? = some a ∧ Answered (reportsOf (done ++ before)) c a := by
  -- what was reported so far settles the next answer, so `done` grows along the calls
  induction calls generalizing done s u with
  | nil =>
    refine ⟨[], s, u, rfl, rfl, ?_, rfl, fun before c after hcalls => absurd hcalls (by simp)⟩
    rwa [List.append_nil]
  | cons c rest ih =>
    obtain ⟨a, t, v, hperform, halone, hanswered, hnext⟩ := h.perform (hon c List.mem_cons_self)
    obtain ⟨answers, s', u', hrest, hrestAlone, hbeside, hlength, hanswers⟩ :=
      ih hnext fun d hd => hon d (List.mem_cons_of_mem c hd)
    refine ⟨a :: answers, s', u', ?_, ?_, ?_, congrArg (· + 1) hlength, fun before d after hcalls => ?_⟩
    · rw [List.mapM_cons, Action.exec_bind_ok hperform, Action.exec_bind_ok hrest]
      rfl
    · rw [List.flatMap_cons, List.mapM_append, Action.exec_bind_ok halone, Action.exec_bind_ok hrestAlone]
      rfl
    · rwa [List.append_assoc] at hbeside
    · cases before with
      | nil =>
        obtain ⟨rfl, -⟩ := List.cons.inj hcalls
        exact ⟨a, rfl, by rwa [List.append_nil]⟩
      | cons b before =>
        obtain ⟨rfl, htail⟩ := List.cons.inj hcalls
        obtain ⟨a', ha', hanswered'⟩ := hanswers before d after htail
        refine ⟨a', ha', ?_⟩
        rwa [List.append_assoc] at hanswered'

end Beside

/-- In a file without events, reports always return, and whatever else is done to the file, the newest events tell what
was reported last, the newest first. Each report has its one row, in order. The calls to stores end as they do without
all others, and leave the same documents. -/
theorem events_tell_reports {files : FileTree} {n : Nat}
    (hconnect : (Storage.connect path).exec { files } = (.ok n, s)) (hempty : files.eventsAt path.resolve = [])
    (calls : List Call) (hon : ∀ c ∈ calls, c.On path.resolve) :
    ∃ answers s' alone, (calls.mapM Call.perform).exec s = (.ok answers, s') ∧ answers.length = calls.length ∧
      (∀ before p r after, calls = before ++ .report p r :: after →
        answers[before.length]? = some (.done (.ok ()))) ∧
      (∀ before p limit after, calls = before ++ .events p limit :: after → -(2 ^ 63) ≤ limit → limit < 2 ^ 63 →
        ∃ es, answers[before.length]? = some (.events (.ok es)) ∧
          es.length = passing limit (reportsOf before).length ∧
          List.Forall₂ Event.Tells es ((reportsOf before).reverse.take es.length)) ∧
      s'.files.eventsAt path.resolve = (reportsOf calls).map Report.row ∧
      ((calls.flatMap Call.documentCalls).mapM DocumentCall.perform).exec s =
        (.ok (answers.flatMap Answer.documentAnswers), alone) ∧
      s'.files.documentsAt path.resolve = alone.files.documentsAt path.resolve := by
  have hstart := Storage.tabled_of_connect hconnect
  have hbefore : Beside path.resolve [] s s := ⟨nofun, _, _, by rwa [hempty] at hstart, hstart⟩
  obtain ⟨answers, s', alone, hexec, halone, ⟨-, documents, events, hs', hu'⟩, hlength, hanswers⟩ :=
    hbefore.performAll hon
  refine ⟨answers, s', alone, hexec, hlength, ?_, ?_, hs'.events, halone, hs'.documents.trans hu'.documents.symm⟩
  · intro before p r after hcalls
    obtain ⟨a, ha, hanswered⟩ := hanswers before _ after hcalls
    cases hanswered
    exact ha
  · intro before p limit after hcalls hlow hhigh
    obtain ⟨a, ha, hanswered⟩ := hanswers before _ after hcalls
    cases hanswered with
    | @events _ _ es hfits htell =>
      rw [List.nil_append] at htell
      have hcount : es.length = passing limit (reportsOf before).length := by
        rw [htell.length_eq, List.length_take, List.length_reverse, Nat.min_eq_left (passing_le limit _)]
      exact ⟨es, ha, hcount, by rw [hcount]; exact htell⟩
    | overflow _ hfits =>
      have hfits' : Cell.fitsInt64 limit = true := by
        rw [Cell.fitsInt64, Bool.and_eq_true, decide_eq_true_eq, decide_eq_true_eq]
        exact ⟨hlow, hhigh⟩
      rw [hfits] at hfits'
      cases hfits'

/-- Two reports by different paths to one file, with a document written in between and connections closed, and a write
that fails. -/
theorem events_tell_reports_reopened :
    let path : Path := .ofText "/data/keyfetch.db"
    let again : Path := .ofText "/data/jobs/../keyfetch.db"
    let users : SqliteStore := ⟨path, "users"⟩
    let first : Report := ⟨"09:00", receiveKind, ⟨"1", [("b", "é"), ("a", "\"")], ⟨#[255]⟩⟩, "kv://c/users"⟩
    let second : Report := ⟨"09:01", "SEND", ⟨"2", [], .empty⟩, ""⟩
    let calls : List Call := [.report path first, .document (.upsertJson users "k" "[]" (.int 0)), .closeAll,
      .connect again, .report again second, .document (.upsertBinary users "k" ⟨#[1]⟩ (.int (2 ^ 64))),
      .events path 1, .events again (-1)]
    ∃ n s answers s' e e₁ e₂, (Storage.connect path).exec {} = (.ok n, s) ∧
      FileTree.eventsAt {} path.resolve = [] ∧ (∀ c ∈ calls, c.On path.resolve) ∧
      (calls.mapM Call.perform).exec s = (.ok answers, s') ∧
      answers[6]? = some (.events (.ok [e])) ∧ e.Tells second ∧
      answers[7]? = some (.events (.ok [e₂, e₁])) ∧ e₂.Tells second ∧ e₁.Tells first := by
  intro path again users first second calls
  obtain ⟨n, s, hconnect, -⟩ : ∃ n s, (Storage.connect path).exec {} = (.ok n, s) ∧ decide (n = 0) = true :=
    Action.exec_eq_ok_of_any (by decide +kernel)
  have hempty : FileTree.eventsAt {} path.resolve = [] := rfl
  have hsame : again.resolve = path.resolve := by decide +kernel
  have hfirst : first.record.names.Nodup := by decide
  have hon : ∀ c ∈ calls, c.On path.resolve := by
    simp only [calls, List.forall_mem_cons, Call.On, hsame, DocumentCall.path]
    exact ⟨⟨trivial, hfirst⟩, rfl, trivial, trivial, ⟨trivial, List.nodup_nil⟩, rfl, trivial, trivial, nofun⟩
  obtain ⟨answers, s', -, hexec, -, -, hevents, -⟩ := events_tell_reports hconnect hempty calls hon
  obtain ⟨es, hlast, hcount, htell⟩ := hevents (calls.take 6) path 1 (calls.drop 7) rfl (by decide) (by decide)
  obtain ⟨all, hall, hcount', htell'⟩ :=
    hevents (calls.take 7) again (-1) (calls.drop 8) rfl (by decide) (by decide)
  rw [hcount] at htell
  rw [hcount'] at htell'
  obtain ⟨e, rfl, he⟩ : ∃ e, es = [e] ∧ e.Tells second := by
    cases htell with
    | cons he hnil =>
      cases hnil
      exact ⟨_, rfl, he⟩
  obtain ⟨e₁, e₂, rfl, he₁, he₂⟩ : ∃ e₁ e₂, all = [e₂, e₁] ∧ e₁.Tells first ∧ e₂.Tells second := by
    cases htell' with
    | cons he₂ hrest =>
      cases hrest with
      | cons he₁ hnil =>
        cases hnil
        exact ⟨_, _, rfl, he₁, he₂⟩
  exact ⟨n, s, answers, s', e, e₁, e₂, hconnect, hempty, hon, hexec, hlast, he, hall, he₂, he₁⟩

end Provenance

end DocFetch
