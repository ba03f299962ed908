import DocFetch.Proofs.World.Storage
import DocFetch.Provenance
import DocFetch.Store.Open

/-! # Stores and provenance at work

Reading documents changes at most directories, and nothing at all once the database is connected. Reporting
an event adds one row.
-/

namespace DocFetch

variable {α : Type} {scope : Set Resource}

namespace World

theorem exec_changeFiles (f : FileTree → Except Failure FileTree) (w : World) :
    (changeFiles f).exec w =
      match f w.files with
      | .ok files => (.ok (), { w with storage := { w.storage with files } })
      | .error e => (.error e, w) := by
  unfold changeFiles
  rw [Action.exec_bind_ok (Action.exec_get w)]
  cases hfiles : f w.files with
  | error e => exact Action.exec_bind_error (Action.exec_ofExcept (.error e) w) setFiles
  | ok files => exact Action.exec_bind_ok (Action.exec_ofExcept (.ok files) w) setFiles

theorem exec_changeFiles_of_ok {f : FileTree → Except Failure FileTree} {w : World} {files : FileTree}
    (h : f w.files = .ok files) :
    (changeFiles f).exec w = (.ok (), { w with storage := { w.storage with files } }) := by
  rw [exec_changeFiles, h]

theorem changeFiles_eq_ok {f : FileTree → Except Failure FileTree} {w w' : World}
    (h : (changeFiles f).exec w = (.ok (), w')) :
    ∃ files, f w.files = .ok files ∧ w' = { w with storage := { w.storage with files } } := by
  rw [exec_changeFiles] at h
  split at h
  · rename_i files hfiles
    cases h
    exact ⟨files, hfiles, rfl⟩
  · cases h

theorem moves_changeFiles {f : FileTree → Except Failure FileTree}
    (hf : ∀ t t', f t = .ok t' → t.Changes scope t') : (changeFiles f).Moves (Changes scope) := by
  intro w
  rw [exec_changeFiles]
  cases hfiles : f w.files with
  | error e => exact .refl scope w
  | ok files => exact .of_storage (.of_files (hf _ _ hfiles))

theorem moves_onStorage {a : Action Storage α} (h : a.Moves (Storage.Changes scope)) :
    (onStorage a).Moves (Changes scope) :=
  h.zoom fun _ _ => .of_storage

/-! ## Clients -/

theorem insertedBy_of_length_le {w : World} {n : Nat} (h : w.clients.length ≤ n) (k : String × String) :
    w.insertedBy n k = [] := by
  rw [insertedBy, List.getElem?_eq_none h]

theorem changes_newClient (uri : String) (w : World) :
    w.Changes scope { w with clients := w.clients ++ [{ uri }] } where
  storage := .refl scope w.storage
  stream _ _ := rfl
  connection _ _ := rfl
  drawn _ := rfl
  drawn_le := le_refl _
  inserted n k _ := by
    unfold insertedBy
    dsimp only
    rcases Nat.lt_trichotomy n w.clients.length with hlt | heq | hgt
    · rw [List.getElem?_append_left hlt]
    · rw [heq, List.getElem?_concat_length, List.getElem?_eq_none (le_refl _)]
      rfl
    · rw [List.getElem?_eq_none (by simpa using Nat.succ_le_of_lt hgt), List.getElem?_eq_none hgt.le]
  client n c hc := by
    obtain ⟨hlt, -⟩ := List.getElem?_eq_some_iff.mp hc
    exact ⟨c, by rw [← hc]; exact List.getElem?_append_left hlt, rfl, rfl, rfl⟩
  refusal := rfl

theorem moves_newClient (uri : String) : (newClient uri).Moves (Changes scope) :=
  fun w => changes_newClient uri w

theorem moves_changeClient {f : MongoClient → MongoClient} (hf : ∀ c : MongoClient, c.Continues (f c))
    (hinserted : ∀ c, (f c).inserted = c.inserted) (n : Nat) : (changeClient n f).Moves (Changes scope) := by
  intro w
  have hmodified (m : Nat) : (w.clients.modify n f)[m]? = (w.clients[m]?).map fun c => if n = m then f c else c :=
    List.getElem?_modify f n w.clients m
  refine ⟨.refl scope w.storage, fun _ _ => rfl, fun _ _ => rfl, ?_, fun _ => rfl, le_refl _, ?_, rfl⟩
  · intro m k _
    change insertedBy { w with clients := w.clients.modify n f } m k = _
    simp only [insertedBy, hmodified]
    cases w.clients[m]? with
    | none => rfl
    | some c =>
      by_cases hnm : n = m
      · simp [hnm, hinserted]
      · simp [hnm]
  · intro m c hc
    refine ⟨if n = m then f c else c, ?_, ?_⟩
    · exact (hmodified m).trans (by rw [hc, Option.map_some])
    · split
      · exact hf c
      · exact ⟨rfl, rfl, rfl⟩

theorem continues_access (c : MongoClient) (database collection : String) :
    c.Continues (c.access database collection) := ⟨rfl, rfl, rfl⟩

theorem continues_close (c : MongoClient) : c.Continues c.close := ⟨rfl, rfl, rfl⟩

theorem changes_draw (uuid : Nat → String) (w : World) : w.Changes {.drawn} ((draw uuid).run w).2 :=
  ⟨.refl _ w.storage, fun _ _ => rfl, fun _ _ => rfl, fun _ _ _ => rfl, fun h => absurd rfl h,
    Nat.le_succ _, fun _ c hc => ⟨c, hc, rfl, rfl, rfl⟩, rfl⟩

end World

/-! ## Stores -/

namespace SqliteStore

/-- The failure that a store gives for one of its database. -/
def connectionFailure (doing : String) (f : Failure) : Failure :=
  if isReported f then .fetch (.say .connection (doing ++ ": " ++ f.message)) else f

theorem exec_asConnection (doing : String) (a : Action Storage α) (s : Storage) :
    (asConnection doing a).exec s = ((a.exec s).1.mapError (connectionFailure doing), (a.exec s).2) := by
  unfold asConnection
  rw [Action.exec_bind_ok (Action.exec_attempt a s)]
  rcases a.exec s with ⟨r, t⟩
  cases r with
  | ok v => rfl
  | error f =>
    dsimp only
    split
    · rename_i hreported
      simp [Except.mapError, connectionFailure, hreported]
    · rename_i hreported
      simp [Except.mapError, connectionFailure, hreported]

theorem moves_openAt (path : Path) (bucket : String) :
    (openAt path bucket).Moves (Storage.Changes {.directories}) := by
  unfold openAt
  refine .bind (Action.Moves.discard fun s => ?_) fun _ => .pure _
  rw [exec_asConnection]
  exact Storage.moves_connect path s

theorem openAt_eq_ok {path : Path} {bucket : String} {store : SqliteStore} {s s' : Storage}
    (h : (openAt path bucket).exec s = (.ok store, s')) :
    store = { path, bucket } ∧ s'.connections.Has path.resolve := by
  unfold openAt at h
  obtain ⟨_, t, hconnect, h⟩ := Action.exec_bind_eq_ok h
  cases h
  obtain ⟨n, hn⟩ := Action.exec_discard_eq_ok hconnect
  rw [exec_asConnection] at hn
  refine ⟨rfl, ?_⟩
  rcases hresult : (Storage.connect path).exec s with ⟨r, u⟩
  rw [hresult] at hn
  cases r with
  | error e => cases hn
  | ok m =>
    cases hn
    exact Storage.connect_eq_ok hresult

/-- The row of a document in a table. -/
def rowIn (s : SqliteStore) (t : DocumentTable) (id : String) : Except Failure DocumentRow :=
  match t.lookup s.bucket id with
  | some r => .ok r
  | none => .error (missingFrom s.bucket id)

/-- Looking a document up. -/
def lookUp (s : SqliteStore) (id : String) : Action Storage (Option DocumentRow) :=
  Storage.transact s.path <| Transaction.read fun d => do return (← d.documentTable).lookup s.bucket id

theorem row_eq (s : SqliteStore) (id : String) :
    ∃ doing, s.row id = (do
      match ← asConnection doing (s.lookUp id) with
      | some r => return r
      | none => Action.fail (missingFrom s.bucket id)) := ⟨_, rfl⟩

theorem moves_row (s : SqliteStore) (id : String) : (s.row id).Moves (Storage.Changes {.directories}) := by
  obtain ⟨doing, hrow⟩ := s.row_eq id
  rw [hrow]
  refine .bind (fun st => ?_) fun found => ?_
  · rw [exec_asConnection]
    have hlook : st.Changes (st.sessionScope s.path ∅) ((s.lookUp id).exec st).2 :=
      Storage.transact_changes (Transaction.moves_read _ _) st
    refine hlook.mono ?_
    rintro r (hr | ⟨rfl, -⟩)
    · exact hr.elim
    · rfl
  · cases found with
    | some r => exact .pure r
    | none => exact .fail _

theorem exec_lookUp_of_connect (s : SqliteStore) {st st' : Storage} {n : Nat} {d : Database}
    (hconnect : (Storage.connect s.path).exec st = (.ok n, st'))
    (hd : st'.files.databaseAt s.path.resolve = some d) (id : String) :
    (s.lookUp id).exec st = (d.documentTable.map fun t => t.lookup s.bucket id, st') := by
  rw [lookUp, Storage.exec_transact_of_connect hconnect hd, Transaction.exec_read,
    Storage.withTransaction_transaction hd]
  cases htable : d.documentTable with
  | ok t => simp [Storage.transaction, htable, Except.map]
  | error e => simp [Storage.transaction, htable, Except.map]

theorem exec_row_of_connect (s : SqliteStore) {st st' : Storage} {n : Nat} {d : Database} {t : DocumentTable}
    (hconnect : (Storage.connect s.path).exec st = (.ok n, st'))
    (hd : st'.files.databaseAt s.path.resolve = some d) (ht : d.documents = some t) (id : String) :
    (s.row id).exec st = (s.rowIn t id, st') := by
  obtain ⟨doing, hrow⟩ := s.row_eq id
  have htable : d.documentTable = .ok t := by rw [Database.documentTable, ht]
  have hexec := exec_lookUp_of_connect s hconnect hd id
  rw [htable] at hexec
  have hlook : (asConnection doing (s.lookUp id)).exec st = (.ok (t.lookup s.bucket id), st') := by
    rw [exec_asConnection, hexec]
    rfl
  rw [hrow, Action.exec_bind_ok hlook, rowIn]
  cases t.lookup s.bucket id <;> rfl

theorem exec_row_of_connected (s : SqliteStore) {st : Storage} (h : st.Connected s.path) (id : String) :
    ∃ st', (s.row id).exec st = (s.rowIn (st.files.documentsAt s.path.resolve) id, st') ∧ st.Changes ∅ st' := by
  obtain ⟨hhas, d, hd, hdocuments, -⟩ := h
  obtain ⟨n, hconnect⟩ := Storage.exec_connect_of_has hhas
  obtain ⟨t, ht⟩ := Option.isSome_iff_exists.mp hdocuments
  have hat : st.files.documentsAt s.path.resolve = t := by
    rw [FileTree.documentsAt, hd, Option.bind_some, ht, Option.getD_some]
  rw [hat]
  exact ⟨st, s.exec_row_of_connect hconnect hd ht id, .refl ∅ st⟩

theorem moves_row_bind {β : Type} (s : SqliteStore) (id : String) (g : DocumentRow → Except Failure β) :
    (s.row id >>= fun r => Action.ofExcept (g r)).Moves (Storage.Changes {.directories}) :=
  (s.moves_row id).bind fun r => .ofExcept (g r)

theorem exec_row_bind_of_connected {β : Type} (s : SqliteStore) {st : Storage} (h : st.Connected s.path)
    (id : String) (g : DocumentRow → Except Failure β) :
    ∃ st', (s.row id >>= fun r => Action.ofExcept (g r)).exec st =
      (s.rowIn (st.files.documentsAt s.path.resolve) id >>= g, st') ∧ st.Changes ∅ st' := by
  obtain ⟨st', hrow, hchanges⟩ := s.exec_row_of_connected h id
  refine ⟨st', ?_, hchanges⟩
  rw [Action.exec_bind_ofExcept, hrow]

end SqliteStore

namespace DocumentStore

variable {σ τ : Type} {R Q : σ → σ → Prop} {s : σ}

/-- Reading leads along a relation. -/
structure Reads (R : σ → σ → Prop) (store : DocumentStore σ) : Prop where
  getJson : ∀ id, (store.getJson id).Moves R
  getBinary : ∀ id, (store.getBinary id).Moves R

/-- Wherever `Q` leads from a state, reading gives what it gives in that state, and leads along `R`. -/
structure Steady (Q R : σ → σ → Prop) (s : σ) (store : DocumentStore σ) : Prop where
  json : ∀ id t, Q s t → ((store.getJson id).exec t).1 = ((store.getJson id).exec s).1
  binary : ∀ id t, Q s t → ((store.getBinary id).exec t).1 = ((store.getBinary id).exec s).1
  jsonMoves : ∀ id t, Q s t → R t ((store.getJson id).exec t).2
  binaryMoves : ∀ id t, Q s t → R t ((store.getBinary id).exec t).2

theorem Reads.mono {S : σ → σ → Prop} {store : DocumentStore σ} (h : store.Reads R)
    (hRS : ∀ s t, R s t → S s t) : store.Reads S :=
  ⟨fun id => (h.getJson id).mono hRS, fun id => (h.getBinary id).mono hRS⟩

theorem Reads.zoom {S : τ → τ → Prop} {get : σ → τ} {set : σ → τ → σ} {store : DocumentStore τ}
    (h : store.Reads S) (hset : ∀ s t, S (get s) t → R s (set s t)) : (store.zoom get set).Reads R :=
  ⟨fun id => (h.getJson id).zoom hset, fun id => (h.getBinary id).zoom hset⟩

theorem Steady.zoom {P S : τ → τ → Prop} {get : σ → τ} {set : σ → τ → σ} {store : DocumentStore τ}
    (h : store.Steady P S (get s)) (hget : ∀ t, Q s t → P (get s) (get t))
    (hset : ∀ s t, S (get s) t → R s (set s t)) : (store.zoom get set).Steady Q R s where
  json id t ht := h.json id (get t) (hget t ht)
  binary id t ht := h.binary id (get t) (hget t ht)
  jsonMoves id t ht := hset t _ (h.jsonMoves id (get t) (hget t ht))
  binaryMoves id t ht := hset t _ (h.binaryMoves id (get t) (hget t ht))

end DocumentStore

theorem MemoryStore.reads {σ : Type} {R : σ → σ → Prop} [Std.Refl R] (m : MemoryStore) :
    (m.reader : DocumentStore σ).Reads R :=
  ⟨fun _ => .ofExcept _, fun _ => .ofExcept _⟩

theorem MemoryStore.steady {σ : Type} {Q R : σ → σ → Prop} [Std.Refl R] (m : MemoryStore) (s : σ) :
    (m.reader : DocumentStore σ).Steady Q R s :=
  ⟨fun _ _ _ => rfl, fun _ _ _ => rfl, fun _ t _ => Std.Refl.refl t, fun _ t _ => Std.Refl.refl t⟩

theorem SqliteStore.reads (store : SqliteStore) : store.reader.Reads (Storage.Changes {.directories}) :=
  ⟨fun id => store.moves_row_bind id _, fun id => store.moves_row_bind id _⟩

theorem SqliteStore.steady (store : SqliteStore) {s : Storage} (h : s.Connected store.path)
    (hscope : .documents store.path.resolve ∉ scope) :
    store.reader.Steady (Storage.Changes scope) (Storage.Changes ∅) s := by
  have hread {β : Type} (id : String) (g : DocumentRow → Except Failure β) (t : Storage)
      (ht : s.Changes scope t) :
      ((store.row id >>= fun r => Action.ofExcept (g r)).exec t).1 =
          ((store.row id >>= fun r => Action.ofExcept (g r)).exec s).1 ∧
        t.Changes ∅ ((store.row id >>= fun r => Action.ofExcept (g r)).exec t).2 := by
    obtain ⟨s', hs, -⟩ := store.exec_row_bind_of_connected h id g
    obtain ⟨t', ht', hchanges⟩ := store.exec_row_bind_of_connected (ht.connected h) id g
    rw [hs, ht', ht.files.documents _ hscope]
    exact ⟨rfl, hchanges⟩
  exact ⟨fun id t ht => (hread id _ t ht).1, fun id t ht => (hread id _ t ht).1,
    fun id t ht => (hread id _ t ht).2, fun id t ht => (hread id _ t ht).2⟩

namespace OpenStore

/-- What a store needs in order to be read. -/
def Ready (w : World) : OpenStore → Prop
  | memory _ => True
  | sqlite s => w.storage.Connected s.path
  | mongo n _ => n < w.clients.length

theorem reads (o : OpenStore) : o.reader.Reads (World.Changes {.directories}) := by
  cases o with
  | memory m => exact m.reads
  | sqlite s => exact s.reads.zoom fun _ _ => .of_storage
  | mongo n bucket => exact ⟨fun id => .bind (.lift fun w => .refl _ w) fun _ => .ofExcept _,
      fun id => .bind (.lift fun w => .refl _ w) fun _ => .ofExcept _⟩

private theorem run_find {w : World} {n : Nat} {c : MongoClient} (hc : w.clients[n]? = some c) (id : String) :
    ((World.find n id).run w).1 = c.find id := by
  unfold World.find StateT.run
  dsimp only
  rw [hc]

private theorem find_eq {w w' : World} {n : Nat} (h : w.Changes scope w') (hn : n < w.clients.length)
    (id : String) : ((World.find n id).run w').1 = ((World.find n id).run w).1 := by
  obtain ⟨c, hc⟩ : ∃ c, w.clients[n]? = some c := ⟨_, List.getElem?_eq_getElem hn⟩
  obtain ⟨c', hc', hcontinues⟩ := h.client n c hc
  rw [run_find hc, run_find hc', MongoClient.find, hcontinues.failure, hcontinues.documents]
  rfl

theorem steady (o : OpenStore) {w : World} (h : o.Ready w) (hscope : ∀ p, .documents p ∉ scope) :
    o.reader.Steady (World.Changes scope) (World.Changes ∅) w := by
  cases o with
  | memory m => exact m.steady w
  | sqlite s => exact (s.steady h (hscope _)).zoom (fun _ ht => ht.storage) fun _ _ => .of_storage
  | mongo n bucket =>
    refine ⟨fun id t ht => ?_, fun id t ht => ?_, fun _ t _ => .refl ∅ t, fun _ t _ => .refl ∅ t⟩
    · exact congrArg (Mongo.readJson bucket id) (find_eq ht h id)
    · exact congrArg (Mongo.readBinary bucket id) (find_eq ht h id)

theorem exec_close (o : OpenStore) (w : World) :
    ∃ w', o.reader.close.exec w = (.ok (), w') ∧ w.Changes ∅ w' := by
  cases o with
  | memory m => exact ⟨w, rfl, .refl ∅ w⟩
  | sqlite s => exact ⟨w, rfl, .refl ∅ w⟩
  | mongo n bucket => exact ⟨_, rfl, World.moves_changeClient World.continues_close (fun _ => rfl) n w⟩

end OpenStore

namespace StoreConfig

theorem moves_openStore (c : StoreConfig) (bucket : String) (base : Option Path) :
    (c.openStore bucket base).Moves (World.Changes {.directories}) := by
  unfold openStore
  split
  · exact .pure _
  · exact .bind (World.moves_onStorage (SqliteStore.moves_openAt _ bucket)) fun _ => .pure _
  · refine .bind (World.moves_newClient _) fun n => .bind ?_ fun _ => .pure _
    exact World.moves_changeClient (World.continues_access · c.database bucket) (fun _ => rfl) n

/-- A store that was opened can be read, where connections lead to databases with their tables. -/
theorem openStore_ready {c : StoreConfig} {bucket : String} {base : Option Path} {w w' : World}
    {o : OpenStore} (h : (c.openStore bucket base).exec w = (.ok o, w')) (hsound : w'.storage.Sound) :
    o.Ready w' := by
  unfold openStore at h
  split at h
  · cases h
    exact trivial
  · obtain ⟨store, t, hopen, h⟩ := Action.exec_bind_eq_ok h
    cases h
    obtain ⟨storage, hstorage, rfl⟩ := Action.exec_zoom_eq_ok hopen
    obtain ⟨rfl, hhas⟩ := SqliteStore.openAt_eq_ok hstorage
    exact ⟨hhas, hsound _ hhas⟩
  · obtain ⟨n, t, hnew, h⟩ := Action.exec_bind_eq_ok h
    obtain ⟨_, u, haccess, h⟩ := Action.exec_bind_eq_ok h
    cases h
    cases hnew
    cases haccess
    change w.clients.length < (List.modify _ _ _).length
    simp

end StoreConfig

end DocFetch
