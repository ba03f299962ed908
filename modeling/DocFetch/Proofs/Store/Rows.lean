import DocFetch.Proofs.Store.Stored
import DocFetch.Proofs.World.Actions

/-! # Documents of a table

Other programs may have written any cell into any column of a row. Reading gives the text or blob that is there as
the content of a document, with the numbers beside it, or fails as a store does. A number in the place of the content
is the exception: it becomes zero bytes, or an error that is none of a store.
-/

namespace DocFetch

/-- The bytes of a cell that holds a text or a blob. -/
inductive Cell.Holds : Cell → ByteArray → Prop
  | text (s : String) : Holds (.text s) (Text.encodeUtf8 s)
  | blob (b : ByteArray) : Holds (.blob b) b

theorem Cell.Holds.iff_eq {c : Cell} {b b' : ByteArray} (h : c.Holds b) : c.Holds b' ↔ b' = b := by
  constructor
  · intro h'
    cases h <;> cases h' <;> rfl
  · intro hb
    rwa [hb]

namespace DocumentRow

variable {α : Type} {r : DocumentRow} {b : ByteArray}

/-- Whether a row holds a text or a blob as its content. -/
def HasContent (r : DocumentRow) : Prop := ∃ b, r.content.Holds b

/-- The numbers that a row gives a document. -/
def Numbers (r : DocumentRow) (d : Document α) : Prop :=
  ∃ cas expiry : Int, r.cas = .int cas ∧ r.expiry = .int expiry ∧ d.Numbered cas expiry

/-- The document that is read from a row as text; the bytes of a blob have to be the UTF-8 form of it. -/
def ReadsText (r : DocumentRow) (d : Document String) : Prop :=
  r.kind = .text "json" ∧ r.content.Holds (Text.encodeUtf8 d.content) ∧ r.Numbers d

/-- The document that is read from a row as bytes, of whatever kind it is. -/
def ReadsBytes (r : DocumentRow) (d : Document ByteArray) : Prop := r.content.Holds d.content ∧ r.Numbers d

theorem toValue_eq_int {c : Cell} {n : Int} : c.toValue = .int n ↔ c = .int n := by
  cases c <;> simp [Cell.toValue]

theorem bytes_of_holds (h : r.content.Holds b) : r.bytes = .ok b := by
  unfold bytes
  generalize r.content = c at h
  cases h <;> rfl

variable {absent : Failure}

theorem settled_ofStored {content : α} {Reads : DocumentRow → Document α → Prop}
    (h : ∀ d, Reads r d ↔ d.content = content ∧ r.Numbers d) (id : String) :
    Settled Reads absent (some r) (Document.ofStored id content r.cas.toValue r.expiry.toValue) := by
  apply Settled.ofStored
  intro d
  simp only [h, Numbers, toValue_eq_int]

theorem settled_readText (h : r.HasContent) (id : String) : Settled ReadsText absent (some r) (r.readText id) := by
  obtain ⟨b, hb⟩ := h
  have hbytes : r.bytes = pure b := bytes_of_holds hb
  unfold readText
  rw [hbytes, pure_bind]
  by_cases hkind : r.kind = .text "json"
  · rw [if_pos (beq_iff_eq.mpr hkind)]
    cases hs : Text.decodeUtf8? b with
    | some s =>
      rw [Text.decodeUtf8?_eq_some_iff] at hs
      apply settled_ofStored
      intro d
      unfold ReadsText
      rw [hb.iff_eq, ← hs, Text.encodeUtf8_inj]
      simp [hkind]
    | none =>
      refine .failed ?_ ⟨_, rfl, rfl⟩
      intro d hd
      have hdecoded := Text.decodeUtf8?_eq_some_iff.mpr (hb.iff_eq.mp hd.2.1)
      rw [hs] at hdecoded
      cases hdecoded
  · rw [if_neg (by rwa [beq_iff_eq])]
    apply Settled.failed
    · intro d hd
      exact hkind hd.1
    · exact ⟨_, rfl, rfl⟩

theorem settled_readBytes (h : r.HasContent) (id : String) : Settled ReadsBytes absent (some r) (r.readBytes id) := by
  obtain ⟨b, hb⟩ := h
  have hbytes : r.bytes = pure b := bytes_of_holds hb
  unfold readBytes
  rw [hbytes, pure_bind]
  apply settled_ofStored
  intro d
  unfold ReadsBytes
  rw [hb.iff_eq]

end DocumentRow

/-! ## Stores -/

namespace SqliteStore

variable {α : Type} {store : SqliteStore} {s s' : Storage} {n : Nat} {d : Database} {id : String}

theorem exec_row_of_no_table (hconnect : (Storage.connect store.path).exec s = (.ok n, s'))
    (hd : s'.files.databaseAt store.path.resolve = some d) (hnone : d.documents = none) (id : String) :
    ∃ f, ((store.row id).exec s).1 = .error f ∧ f.IsOf .connection := by
  obtain ⟨doing, hrow⟩ := store.row_eq id
  have htable : d.documentTable = .error (Database.noSuchTable "documents") := by
    rw [Database.documentTable, hnone]
  have hexec := exec_lookUp_of_connect store hconnect hd id
  rw [htable] at hexec
  have hlook : (asConnection doing (store.lookUp id)).exec s =
      (.error (connectionFailure doing (Database.noSuchTable "documents")), s') := by
    rw [exec_asConnection, hexec]
    rfl
  rw [hrow, Action.exec_bind_error hlook]
  exact ⟨_, rfl, _, rfl, rfl⟩

theorem settled_rowIn {Reads : DocumentRow → Document α → Prop} {g : DocumentRow → Except Failure (Document α)}
    {t : DocumentTable}
    (h : ∀ r ∈ t.lookup store.bucket id, Settled Reads (missingFrom store.bucket id) (some r) (g r)) :
    Settled Reads (missingFrom store.bucket id) (t.lookup store.bucket id) (store.rowIn t id >>= g) := by
  unfold rowIn
  cases hlookup : t.lookup store.bucket id with
  | none => exact .nothing
  | some r => exact h r hlookup

/-- A read ends as the row under its id says, where a text or a blob is the content of the row. The other columns
may hold anything. -/
theorem rows_settle_reads (hconnect : (Storage.connect store.path).exec s = (.ok n, s'))
    (hd : s'.files.databaseAt store.path.resolve = some d)
    (hcontent : ∀ t ∈ d.documents, ∀ r ∈ t.lookup store.bucket id, r.HasContent) :
    let json := ((store.getJson id).exec s).1
    let binary := ((store.getBinary id).exec s).1
    (∀ t ∈ d.documents,
      Settled DocumentRow.ReadsText (missingFrom store.bucket id) (t.lookup store.bucket id) json ∧
      Settled DocumentRow.ReadsBytes (missingFrom store.bucket id) (t.lookup store.bucket id) binary) ∧
    (d.documents = none →
      (∃ f, json = .error f ∧ f.IsOf .connection) ∧ ∃ f, binary = .error f ∧ f.IsOf .connection) := by
  intro json binary
  have hjson : json = ((store.row id).exec s).1 >>= fun r => r.readText id :=
    congrArg Prod.fst (Action.exec_bind_ofExcept (store.row id) (fun r => r.readText id) s)
  have hbinary : binary = ((store.row id).exec s).1 >>= fun r => r.readBytes id :=
    congrArg Prod.fst (Action.exec_bind_ofExcept (store.row id) (fun r => r.readBytes id) s)
  rw [hjson, hbinary]
  constructor
  · intro t ht
    rw [store.exec_row_of_connect hconnect hd ht id]
    constructor
    · apply settled_rowIn
      intro r hr
      exact DocumentRow.settled_readText (hcontent t ht r hr) id
    · apply settled_rowIn
      intro r hr
      exact DocumentRow.settled_readBytes (hcontent t ht r hr) id
  · intro hnone
    obtain ⟨f, hf, hkind⟩ := exec_row_of_no_table hconnect hd hnone id
    rw [hf]
    exact ⟨⟨f, rfl, hkind⟩, f, rfl, hkind⟩

/-- A file that is connected, with a table that other programs wrote. -/
def storageOf (path : Path) (t : DocumentTable) : Storage where
  files := ⟨[(path.resolve, .database { documents := some t })]⟩
  connections := { live := [(path.resolve, 0)], locks := [(path.resolve, 0)], opened := 1 }

theorem exec_connect_storageOf (path : Path) (t : DocumentTable) :
    (Storage.connect path).exec (storageOf path t) = (.ok 0, storageOf path t) := by
  have hopen : (storageOf path t).connections.openAt path.resolve (Storage.prepare path.resolve) =
      return ((0, 0), (storageOf path t).connections) := by
    simp [storageOf, Connections.openAt, Assoc.get?]
  unfold Storage.connect
  rw [Action.exec_bind_ok (Action.exec_get _), hopen]
  rfl

/-- A text as content, and bytes that are no UTF-8. -/
theorem rows_settle_reads_foreign :
    let users : SqliteStore := ⟨.ofText "/documents.db", "users"⟩
    let t : DocumentTable := [(("users", "a"), ⟨.text "json", .text "é", .int 7, .int 0⟩),
      (("users", "b"), ⟨.text "json", .blob ⟨#[255]⟩, .text "seven", .int 0⟩)]
    let s := storageOf users.path t
    let d : Database := { documents := some t }
    (Storage.connect users.path).exec s = (.ok 0, s) ∧
    s.files.databaseAt users.path.resolve = some d ∧
    (∀ id, ∀ t ∈ d.documents, ∀ r ∈ t.lookup users.bucket id, r.HasContent) ∧
    ((users.getJson "a").exec s).1 = .ok { content := "é", cas := .int 7, expiry := .int 0 } ∧
    (∀ document, ((users.getBinary "b").exec s).1 ≠ .ok document) ∧
    ((users.getJson "c").exec s).1 = .error (missingFrom "users" "c") := by
  intro users t s d
  have hconnect : (Storage.connect users.path).exec s = (.ok 0, s) := exec_connect_storageOf users.path t
  have hd : s.files.databaseAt users.path.resolve = some d := rfl
  have hcontent (id : String) : ∀ t ∈ d.documents, ∀ r ∈ t.lookup users.bucket id, r.HasContent := by
    intro t' ht r hr
    cases ht
    obtain ⟨e, he, rfl⟩ := Assoc.exists_mem_of_get? hr
    simp only [t, List.mem_cons, List.not_mem_nil, or_false] at he
    rcases he with rfl | rfl
    · exact ⟨_, .text "é"⟩
    · exact ⟨_, .blob ⟨#[255]⟩⟩
  have hreads (id : String) := (rows_settle_reads hconnect hd (hcontent id)).1 t rfl
  refine ⟨hconnect, hd, hcontent, ?_, ?_, ?_⟩
  · refine ((hreads "a").1.document _).mpr ⟨_, rfl, rfl, .text "é", 7, 0, rfl, rfl, rfl, rfl, ?_⟩
    unfold Document.InRange
    omega
  · intro document hdocument
    obtain ⟨r, hr, -, c, e, hcas, -⟩ := ((hreads "b").2.document document).mp hdocument
    cases hr
    cases hcas
  · exact (hreads "c").1.missing rfl

/-- A table takes numbers as contents. One is read as so many zero bytes, the other ends in an error that is none of
a store. -/
theorem number_read_as_content :
    let users : SqliteStore := ⟨.ofText "/documents.db", "users"⟩
    let integer : DocumentRow := ⟨.text "json", .int 3, .int 1, .int 0⟩
    let real : DocumentRow := ⟨.text "json", .real (.ofInt 1), .int 1, .int 0⟩
    let s := storageOf users.path [(("users", "integer"), integer), (("users", "real"), real)]
    integer.check = .ok integer ∧ real.check = .ok real ∧
    ((users.getBinary "integer").exec s).1 =
      .ok { content := ⟨#[0, 0, 0]⟩, cas := .int 1, expiry := .int 0 } ∧
    ((users.getJson "real").exec s).1 = .error (.fault .wrongType) ∧
    (Failure.fault .wrongType).isKindOf .store = false := by
  intro users integer real s
  refine ⟨rfl, rfl, ?_, ?_, rfl⟩
  · rfl
  · rfl

end SqliteStore

end DocFetch
