import DocFetch.Proofs.Files.Contents
import DocFetch.Proofs.Moves
import DocFetch.World
import Mathlib.Data.Set.Lattice
import Mathlib.Order.CompletePartialOrder

/-! # What changes in a world

Each action is bounded by the resources that it may change: everything else looks the same after it. What
is connected stays connected, and clients stay what they are.
-/

namespace DocFetch

/-- What a world shows: the bytes of files, tables of databases, directories, and what is held open. -/
inductive Resource
  | text (p : Path)
  | table (p : Path) (name : String)
  | events (p : Path)
  | documents (p : Path)
  | directories
  | stream (n : Nat)
  | connection (n : Nat)
  | inserted (client : Nat) (collection : String × String)
  | drawn

/-! ## Files -/

namespace FileTree

/-- The rows of a table in a file, if there is one by that name. -/
def table? (t : FileTree) (p : Path) (name : String) : Option (List ExportRow) :=
  (t.databaseAt p).bind (·.table? name)

/-- The events in a file. -/
def eventsAt (t : FileTree) (p : Path) : EventTable := ((t.databaseAt p).bind Database.events).getD []

/-- The documents in a file. -/
def documentsAt (t : FileTree) (p : Path) : DocumentTable :=
  ((t.databaseAt p).bind Database.documents).getD []

theorem table?_of_database {t : FileTree} {p : Path} {d : Database} (h : t.database p = .ok d) (name : String) :
    t.table? p name = d.table? name := by
  rw [table?, (database_eq_ok h).2]
  cases t.databaseAt p <;> rfl

/-- Whether there is a database with the tables that every connection prepares. -/
def HasSchema (t : FileTree) (p : Path) : Prop := ∃ d, t.databaseAt p = some d ∧ d.HasSchema

structure Changes (scope : Set Resource) (t t' : FileTree) : Prop where
  text : ∀ p, .text p ∉ scope → t'.textAt p = t.textAt p
  table : ∀ p name, .table p name ∉ scope → t'.table? p name = t.table? p name
  events : ∀ p, .events p ∉ scope → t'.eventsAt p = t.eventsAt p
  documents : ∀ p, .documents p ∉ scope → t'.documentsAt p = t.documentsAt p
  directories : .directories ∉ scope → ∀ p, t'.isDirectory p = t.isDirectory p
  schema : ∀ p, t.HasSchema p → t'.HasSchema p

namespace Changes

variable {scope scope' : Set Resource} {t t' u : FileTree} {p q : Path}

theorem refl (scope : Set Resource) (t : FileTree) : t.Changes scope t :=
  ⟨fun _ _ => rfl, fun _ _ _ => rfl, fun _ _ => rfl, fun _ _ => rfl, fun _ _ => rfl, fun _ h => h⟩

theorem trans (h : t.Changes scope t') (h' : t'.Changes scope u) : t.Changes scope u where
  text p hp := (h'.text p hp).trans (h.text p hp)
  table p name hp := (h'.table p name hp).trans (h.table p name hp)
  events p hp := (h'.events p hp).trans (h.events p hp)
  documents p hp := (h'.documents p hp).trans (h.documents p hp)
  directories hd p := (h'.directories hd p).trans (h.directories hd p)
  schema p hp := h'.schema p (h.schema p hp)

theorem mono (h : t.Changes scope t') (hscope : scope ⊆ scope') : t.Changes scope' t' where
  text p hp := h.text p fun hmem => hp (hscope hmem)
  table p name hp := h.table p name fun hmem => hp (hscope hmem)
  events p hp := h.events p fun hmem => hp (hscope hmem)
  documents p hp := h.documents p fun hmem => hp (hscope hmem)
  directories hd := h.directories fun hmem => hd (hscope hmem)
  schema := h.schema

theorem of_databases (htext : ∀ p, .text p ∉ scope → t'.textAt p = t.textAt p)
    (hdirectories : .directories ∉ scope → ∀ p, t'.isDirectory p = t.isDirectory p)
    (hdatabase : ∀ p, t'.databaseAt p = t.databaseAt p) : t.Changes scope t' where
  text := htext
  table p name _ := by rw [table?, hdatabase]; rfl
  events p _ := by rw [eventsAt, hdatabase]; rfl
  documents p _ := by rw [documentsAt, hdatabase]; rfl
  directories := hdirectories
  schema p h := by rwa [HasSchema, hdatabase]

theorem of_append {content : ByteArray} (h : t.append p content = .ok t') :
    t.Changes {.text p.resolve} t' := by
  obtain ⟨-, happended⟩ := append_eq_ok h
  refine .of_databases ?_ (fun _ => happended.directory) happended.database
  intro q hq
  have hne : q ≠ p.resolve := fun heq => hq (by rw [heq]; rfl)
  rw [textAt, happended.other q hne]
  rfl

theorem of_append_empty (h : t.append p .empty = .ok t') : t.Changes ∅ t' := by
  obtain ⟨-, happended⟩ := append_eq_ok h
  refine .of_databases ?_ (fun _ => happended.directory) happended.database
  intro q _
  by_cases hq : q = p.resolve
  · rw [hq, happended.text_self, ByteArray.append_empty]
  · rw [textAt, happended.other q hq]
    rfl

theorem of_makeDirectories (h : t.makeDirectories p = .ok t') : t.Changes {.directories} t' := by
  have hmade := makeDirectories_eq_ok h
  exact .of_databases (fun q _ => hmade.textAt q) (fun hd => absurd rfl hd) hmade.databaseAt

end Changes

end FileTree

/-! ### Databases -/

/-- What changes in a database at a place. -/
structure Database.Changes (scope : Set Resource) (p : Path) (d d' : Database) : Prop where
  table : ∀ name, .table p name ∉ scope → d'.table? name = d.table? name
  events : .events p ∉ scope → d'.events.getD [] = d.events.getD []
  documents : .documents p ∉ scope → d'.documents.getD [] = d.documents.getD []
  schema : d.HasSchema → d'.HasSchema

namespace Database.Changes

theorem refl (scope : Set Resource) (p : Path) (d : Database) : d.Changes scope p d :=
  ⟨fun _ _ => rfl, fun _ => rfl, fun _ => rfl, fun h => h⟩

theorem withDocuments (p : Path) (d : Database) (t : DocumentTable) :
    d.Changes {.documents p} p { d with documents := some t } :=
  ⟨fun _ _ => rfl, fun _ => rfl, fun hp => absurd rfl hp, fun hschema => ⟨rfl, hschema.2⟩⟩

theorem withSchema (p : Path) (d : Database) : d.Changes ∅ p d.withSchema :=
  ⟨fun _ _ => rfl, fun _ => rfl, fun _ => rfl, fun _ => d.hasSchema_withSchema⟩

end Database.Changes

namespace FileTree.Changes

variable {scope : Set Resource} {t t' : FileTree} {p q : Path}

theorem of_database {d d' : Database} (htext : ∀ q, t'.textAt q = t.textAt q)
    (hdirectories : ∀ q, t'.isDirectory q = t.isDirectory q)
    (hother : ∀ q, q ≠ p → t'.databaseAt q = t.databaseAt q) (hbefore : (t.databaseAt p).getD {} = d)
    (hself : t'.databaseAt p = some d') (h : d.Changes scope p d') : t.Changes scope t' where
  text q _ := htext q
  directories _ := hdirectories
  table q name hq := by
    unfold table?
    by_cases hp : q = p
    · subst hp
      rw [hself, Option.bind_some, h.table name hq, ← hbefore]
      cases t.databaseAt q <;> rfl
    · rw [hother q hp]
  events q hq := by
    unfold eventsAt
    by_cases hp : q = p
    · subst hp
      rw [hself, Option.bind_some, h.events hq, ← hbefore]
      cases t.databaseAt q <;> rfl
    · rw [hother q hp]
  documents q hq := by
    unfold documentsAt
    by_cases hp : q = p
    · subst hp
      rw [hself, Option.bind_some, h.documents hq, ← hbefore]
      cases t.databaseAt q <;> rfl
    · rw [hother q hp]
  schema q hq := by
    unfold HasSchema at hq ⊢
    by_cases hp : q = p
    · subst hp
      obtain ⟨e, he, hschema⟩ := hq
      rw [he, Option.getD_some] at hbefore
      exact ⟨d', hself, h.schema (hbefore ▸ hschema)⟩
    · rwa [hother q hp]

theorem of_openDatabase (h : t.openDatabase p = .ok (q, t')) : t.Changes ∅ t' := by
  have hopened := openDatabase_eq_ok h
  have hother (r : Path) (hr : r ≠ q) : t'.databaseAt r = t.databaseAt r := by
    rw [databaseAt, hopened.other r hr]
    rfl
  rcases hopened.database with hsame | ⟨hnone, hmade⟩
  · refine .of_databases (fun r _ => hopened.text r) (fun _ => hopened.directory) ?_
    intro r
    by_cases hr : r = q
    · rw [hr, hsame]
    · exact hother r hr
  · exact .of_database hopened.text hopened.directory hother (by rw [hnone]; rfl) hmade (.refl ∅ q {})

theorem of_putDatabase {d d' : Database} (hd : t.database p = .ok d) (h : d.Changes scope p d') :
    t.Changes scope (t.putDatabase p d') := by
  obtain ⟨hfile, hbefore⟩ := database_eq_ok hd
  have hput := putDatabase_spec hfile d'
  refine .of_database hput.text hput.directory ?_ hbefore.symm hput.self h
  intro q hq
  rw [databaseAt, hput.other q hq]
  rfl

end FileTree.Changes

/-! ## Storage -/

/-- Whether a file has a connection and a lock. -/
def Connections.Has (c : Connections) (p : Path) : Prop :=
  (Assoc.get? p c.live).isSome = true ∧ (Assoc.get? p c.locks).isSome = true

namespace Storage

/-- Every connection leads to a database with its tables. -/
def Sound (s : Storage) : Prop := ∀ p, s.connections.Has p → s.files.HasSchema p

/-- Everything is committed, and no other program holds a file. -/
structure Quiet (s : Storage) : Prop where
  uncommitted : s.uncommitted = []
  holds : s.holds = []

structure Changes (scope : Set Resource) (s s' : Storage) : Prop where
  files : s.files.Changes scope s'.files
  connections : ∀ p, s.connections.Has p → s'.connections.Has p
  sound : s.Sound → s'.Sound
  holds : s'.holds = s.holds
  quiet : s.Quiet → s'.Quiet

namespace Changes

variable {scope scope' : Set Resource} {s s' u : Storage}

theorem refl (scope : Set Resource) (s : Storage) : s.Changes scope s :=
  ⟨.refl scope s.files, fun _ h => h, fun h => h, rfl, fun h => h⟩

theorem trans (h : s.Changes scope s') (h' : s'.Changes scope u) : s.Changes scope u where
  files := h.files.trans h'.files
  connections p hp := h'.connections p (h.connections p hp)
  sound hs := h'.sound (h.sound hs)
  holds := h'.holds.trans h.holds
  quiet hs := h'.quiet (h.quiet hs)

theorem mono (h : s.Changes scope s') (hscope : scope ⊆ scope') : s.Changes scope' s' :=
  ⟨h.files.mono hscope, h.connections, h.sound, h.holds, h.quiet⟩

theorem of_files {files : FileTree} (h : s.files.Changes scope files) : s.Changes scope { s with files } :=
  ⟨h, fun _ hp => hp, fun hs p hp => h.schema p (hs p hp), rfl, fun hs => ⟨hs.uncommitted, hs.holds⟩⟩

instance : Std.Refl (Changes scope) := ⟨.refl scope⟩

instance : IsTrans Storage (Changes scope) := ⟨fun _ _ _ => trans⟩

end Changes

end Storage

/-! ## Worlds -/

/-- A client of which only what it was asked for and what was inserted may have changed. -/
structure MongoClient.Continues (c c' : MongoClient) : Prop where
  uri : c'.uri = c.uri
  documents : c'.documents = c.documents
  failure : c'.failure = c.failure

namespace World

/-- What a client inserted in a collection. -/
def insertedBy (w : World) (n : Nat) (collection : String × String) : List Value :=
  match w.clients[n]? with
  | some c => (Assoc.get? collection c.inserted).getD []
  | none => []

structure Changes (scope : Set Resource) (w w' : World) : Prop where
  storage : w.storage.Changes scope w'.storage
  stream : ∀ n, .stream n ∉ scope → w'.streams[n]? = w.streams[n]?
  connection : ∀ n, .connection n ∉ scope → w'.exports[n]? = w.exports[n]?
  inserted : ∀ n k, .inserted n k ∉ scope → w'.insertedBy n k = w.insertedBy n k
  drawn : .drawn ∉ scope → w'.drawn = w.drawn
  drawn_le : w.drawn ≤ w'.drawn
  client : ∀ (n : Nat) (c : MongoClient), w.clients[n]? = some c →
    ∃ c', w'.clients[n]? = some c' ∧ c.Continues c'
  refusal : w'.refusal = w.refusal

namespace Changes

variable {scope scope' : Set Resource} {w w' u : World}

theorem refl (scope : Set Resource) (w : World) : w.Changes scope w :=
  ⟨.refl scope w.storage, fun _ _ => rfl, fun _ _ => rfl, fun _ _ _ => rfl, fun _ => rfl, le_refl _,
    fun _ c h => ⟨c, h, rfl, rfl, rfl⟩, rfl⟩

theorem trans (h : w.Changes scope w') (h' : w'.Changes scope u) : w.Changes scope u where
  storage := h.storage.trans h'.storage
  stream n hn := (h'.stream n hn).trans (h.stream n hn)
  connection n hn := (h'.connection n hn).trans (h.connection n hn)
  inserted n k hk := (h'.inserted n k hk).trans (h.inserted n k hk)
  drawn hd := (h'.drawn hd).trans (h.drawn hd)
  drawn_le := h.drawn_le.trans h'.drawn_le
  client n c hc := by
    obtain ⟨c', hc', hcontinues⟩ := h.client n c hc
    obtain ⟨c'', hc'', hcontinues'⟩ := h'.client n c' hc'
    exact ⟨c'', hc'', hcontinues'.uri.trans hcontinues.uri, hcontinues'.documents.trans hcontinues.documents,
      hcontinues'.failure.trans hcontinues.failure⟩
  refusal := h'.refusal.trans h.refusal

theorem mono (h : w.Changes scope w') (hscope : scope ⊆ scope') : w.Changes scope' w' where
  storage := h.storage.mono hscope
  stream n hn := h.stream n fun hmem => hn (hscope hmem)
  connection n hn := h.connection n fun hmem => hn (hscope hmem)
  inserted n k hk := h.inserted n k fun hmem => hk (hscope hmem)
  drawn hd := h.drawn fun hmem => hd (hscope hmem)
  drawn_le := h.drawn_le
  client := h.client
  refusal := h.refusal

theorem textAt {p : Path} (h : w.Changes scope w') (hp : .text p ∉ scope) : w'.files.textAt p = w.files.textAt p :=
  h.storage.files.text p hp

theorem table? {p : Path} {name : String} (h : w.Changes scope w') (hp : .table p name ∉ scope) :
    w'.files.table? p name = w.files.table? p name := h.storage.files.table p name hp

theorem eventsAt {p : Path} (h : w.Changes scope w') (hp : .events p ∉ scope) :
    w'.files.eventsAt p = w.files.eventsAt p := h.storage.files.events p hp

theorem of_storage {storage : Storage} (h : w.storage.Changes scope storage) :
    w.Changes scope { w with storage } :=
  ⟨h, fun _ _ => rfl, fun _ _ => rfl, fun _ _ _ => rfl, fun _ => rfl, le_refl _,
    fun _ c hc => ⟨c, hc, rfl, rfl, rfl⟩, rfl⟩

instance : Std.Refl (Changes scope) := ⟨.refl scope⟩

instance : IsTrans World (Changes scope) := ⟨fun _ _ _ => trans⟩

end Changes

end World

end DocFetch
