import DocFetch.Proofs.Store.Rows
import DocFetch.Proofs.Store.Sqlite

/-! # Writing over rows

A write puts its row in the place of the one that is there, with the count that follows, and leaves all other rows.
The count of a row that another program wrote may have none that follows it: the last integer of 64 bits, a text or a
blob. Then the write fails, and the table stays as it was. While another program reads the file nothing can be
committed: the write fails too, but its row is read from then on, until the connection is closed.
-/

namespace DocFetch

/-! ## Numbers that are none -/

namespace Binary64

theorem ofRatio_ne_nan (negative : Bool) (num den : Nat) : ofRatio negative num den ≠ .nan := by
  unfold ofRatio
  by_cases hzero : num = 0
  · rw [if_pos hzero]
    exact nofun
  · rw [if_neg hzero]
    -- the cases are split where they stand, since reducing a number next to `2 ^ 53` takes too long
    extract_lets e
    split
    extract_lets m
    split
    split
    · exact nofun
    · exact nofun

theorem ofDecimal_ne_nan (negative : Bool) (digits : Nat) (exponent : Int) :
    ofDecimal negative digits exponent ≠ .nan := by
  unfold ofDecimal
  dsimp only
  split
  · simp
  split
  · simp
  split
  · simp
  split
  · apply ofRatio_ne_nan
  · apply ofRatio_ne_nan

/-- The number after another one. -/
def next (x : Binary64) : Binary64 := x.add (ofInt 1)

theorem next_ne_nan {x : Binary64} (h : x ≠ .nan) : x.next ≠ .nan := by
  obtain ⟨n, d, hone⟩ : ∃ n d, (ofInt 1).toRatio? = some (n, d) := ⟨_, _, rfl⟩
  unfold next add
  rw [hone]
  cases x with
  | nan => exact absurd rfl h
  | infinite negative => exact h
  | finite negative m e =>
    dsimp only [toRatio?]
    apply ofRatio_ne_nan

end Binary64

/-! ## Cells of a count -/

namespace Cell

/-- The cells of an integer column that has to hold something. -/
inductive IsCount : Cell → Prop
  | int {n : Int} : fitsInt64 n = true → IsCount (.int n)
  | real {x : Binary64} : x ≠ .nan → IsCount (.real x)
  | text (s : String) : IsCount (.text s)
  | blob (b : ByteArray) : IsCount (.blob b)

theorem fitsInt64_iff {n : Int} : fitsInt64 n = true ↔ -(2 ^ 63) ≤ n ∧ n < 2 ^ 63 := by
  simp [fitsInt64]

theorem isCount_settle {x : Binary64} (h : x ≠ .nan) : (settle x).IsCount := by
  unfold settle
  split
  · split
    · apply IsCount.int
      rw [fitsInt64_iff]
      omega
    · exact .real h
  · exact .real h

private theorem isCount_of_parts {fits : Prop} [Decidable fits] {n : Int} {exponent : Option Int}
    {nearest : Int → Binary64} {c : Cell} (hn : fits → fitsInt64 n = true) (hnearest : ∀ e, nearest e ≠ .nan)
    (h : (if fits then some (int n) else exponent.bind fun e => some (settle (nearest e))) = some c) :
    c.IsCount := by
  split at h
  · rename_i hfits
    cases h
    exact .int (hn hfits)
  · obtain ⟨e, -, hc⟩ := Option.bind_eq_some_iff.mp h
    cases hc
    exact isCount_settle (hnearest e)

theorem isCount_of_number {s : String} {c : Cell} (h : number? s = some c) : c.IsCount := by
  unfold number? at h
  dsimp only at h
  split at h
  · split at h
    · cases h
    · exact isCount_of_parts (fun hfits => hfits.2.2) (fun e => Binary64.ofDecimal_ne_nan _ _ _) h
  · split at h
    · cases h
    · exact isCount_of_parts (fun hfits => hfits.2.2) (fun e => Binary64.ofDecimal_ne_nan _ _ _) h

theorem isCount_keep {position : Nat} {v : Value} {c : Cell} (h : bind position v = .ok c) (hnull : c ≠ .null) :
    (c.keep .integer).IsCount := by
  cases c with
  | null => exact absurd rfl hnull
  | int n =>
    apply IsCount.int
    unfold bind at h
    cases v with
    | int m =>
      dsimp only at h
      split at h
      · cases h
        assumption
      · cases h
    | bool b =>
      cases h
      cases b <;> rfl
    | float x =>
      dsimp only at h
      split at h <;> cases h
    | _ => cases h
  | real x =>
    apply isCount_settle
    unfold bind at h
    cases v with
    | float y =>
      dsimp only at h
      split at h
      · cases h
      · cases h
        assumption
    | int m =>
      dsimp only at h
      split at h <;> cases h
    | _ => cases h
  | text s =>
    change ((number? s).getD (.text s)).IsCount
    cases hs : number? s with
    | none => exact .text s
    | some c => exact isCount_of_number hs
  | blob b => exact .blob b

end Cell

/-! ## Rows -/

namespace DocumentRow

/-- A row that the table takes from a statement of any program. -/
def Admitted (r : DocumentRow) : Prop :=
  ∃ given : DocumentRow, (∀ column ∈ given.columns, ∃ position v, Cell.bind position v = .ok column.2) ∧
    given.check = .ok r

theorem Admitted.isCount_cas {r : DocumentRow} (h : r.Admitted) : r.cas.IsCount := by
  obtain ⟨given, hbound, hcheck⟩ := h
  unfold check at hcheck
  split at hcheck
  · cases hcheck
  · rename_i hnone
    cases hcheck
    have hmem : ("cas", given.cas) ∈ given.columns := by simp [columns]
    obtain ⟨position, v, hbind⟩ := hbound _ hmem
    have hnull := List.find?_eq_none.mp hnone _ hmem
    apply Cell.isCount_keep hbind
    intro heq
    exact hnull (beq_iff_eq.mpr heq)

end DocumentRow

namespace DocumentTable

/-- The count of a write over what is there, as it is given back and as its row keeps it. -/
inductive Follows : Option DocumentRow → Value → Cell → Prop
  | first : Follows none (.int 1) (.int 1)
  | integer {r : DocumentRow} {n : Int} : r.cas = .int n → n < 2 ^ 63 - 1 →
      Follows (some r) (.int (n + 1)) (.int (n + 1))
  | real {r : DocumentRow} {x : Binary64} : r.cas = .real x →
      Follows (some r) (.float x.next) (Cell.settle x.next)

/-- What goes wrong with a count that none follows. -/
inductive Stuck : Option DocumentRow → PlatformFault → Prop
  | last {r : DocumentRow} : r.cas = .int (2 ^ 63 - 1) → Stuck (some r) .overflow
  | text {r : DocumentRow} {s : String} : r.cas = .text s → Stuck (some r) .wrongType
  | blob {r : DocumentRow} {b : ByteArray} : r.cas = .blob b → Stuck (some r) .wrongType

variable {t : DocumentTable} {found : Option DocumentRow} {bucket id : String} {content : Content}
  {expiry : Int} {cas : Value} {count : Cell} {f : Failure} {fault : PlatformFault}

theorem Stuck.isSql_eq_false (h : Stuck found fault) : fault.isSql = false := by
  cases h with
  | last _ => rfl
  | text _ => rfl
  | blob _ => rfl

theorem follows_or_stuck (h : ∀ r ∈ found, r.Admitted) :
    (∃ cas count, Follows found cas count) ∨ ∃ fault, Stuck found fault := by
  cases found with
  | none => exact .inl ⟨_, _, .first⟩
  | some r =>
    have hcount := (h r rfl).isCount_cas
    generalize hcas : r.cas = c at hcount
    cases hcount with
    | @int n hfits =>
      rw [Cell.fitsInt64_iff] at hfits
      by_cases hlast : n = 2 ^ 63 - 1
      · rw [hlast] at hcas
        exact .inr ⟨_, .last hcas⟩
      · exact .inl ⟨_, _, .integer hcas (by omega)⟩
    | real => exact .inl ⟨_, _, .real hcas⟩
    | text s => exact .inr ⟨_, .text hcas⟩
    | blob b => exact .inr ⟨_, .blob hcas⟩

/-- The row of a write with its count. -/
def writtenRow (content : Content) (count : Cell) (expiry : Int) : DocumentRow :=
  ⟨.text (kindOf content), .blob content.bytes, count, .int expiry⟩

/-- The count that a write over what is there gives. -/
def nextCount : Option DocumentRow → Except Failure Value
  | some row => row.nextCas
  | none => .ok (.int 1)

theorem upsert_eq_bind (t : DocumentTable) (bucket id : String) (content : Content) (expiry : Int) :
    t.upsert bucket id (kindOf content) content.bytes (.int expiry) = (do
      let cas ← nextCount (t.lookup bucket id)
      let count ← Cell.bind 5 cas
      let expiry ← Cell.bind 6 (.int expiry)
      let row ← DocumentRow.check ⟨.text (kindOf content), .blob content.bytes, count, expiry⟩
      return (cas, Assoc.put (bucket, id) row t)) := by
  unfold upsert
  cases t.lookup bucket id <;> rfl

theorem nextCount_of_follows (h : Follows found cas count) : nextCount found = .ok cas := by
  cases h with
  | first => rfl
  | integer hcas _ => rw [nextCount, DocumentRow.nextCas, hcas]
  | real hcas =>
    rw [nextCount, DocumentRow.nextCas, hcas]
    rfl

theorem bind_of_follows (hfound : ∀ r ∈ found, r.Admitted) (h : Follows found cas count) (position : Nat) :
    ∃ cell, Cell.bind position cas = .ok cell ∧ cell ≠ .null ∧ cell.keep .integer = count := by
  cases h with
  | first => exact ⟨.int 1, rfl, nofun, rfl⟩
  | @integer r n hcas hlast =>
    have hcount := (hfound r rfl).isCount_cas
    rw [hcas] at hcount
    cases hcount with
    | int hfits =>
      have hnext : Cell.fitsInt64 (n + 1) = true := by
        rw [Cell.fitsInt64_iff] at hfits ⊢
        omega
      exact ⟨.int (n + 1), if_pos hnext, nofun, rfl⟩
  | @real r x hcas =>
    have hcount := (hfound r rfl).isCount_cas
    rw [hcas] at hcount
    cases hcount with
    | real hx =>
      have hnext : Cell.bind position (.float x.next) = .ok (.real x.next) := by
        unfold Cell.bind
        dsimp only
        rw [if_neg (Binary64.next_ne_nan hx)]
      exact ⟨.real x.next, hnext, nofun, rfl⟩

theorem bind_expiry (h : 0 ≤ expiry ∧ expiry < 2 ^ 32) (position : Nat) :
    Cell.bind position (.int expiry) = .ok (.int expiry) := by
  apply if_pos
  rw [Cell.fitsInt64_iff]
  omega

/-- Nothing is written to the table but one row, in the place of the one that is there. -/
theorem upsert_of_follows (hfound : ∀ r ∈ t.lookup bucket id, r.Admitted)
    (h : Follows (t.lookup bucket id) cas count) (hexpiry : 0 ≤ expiry ∧ expiry < 2 ^ 32) :
    t.upsert bucket id (kindOf content) content.bytes (.int expiry) =
      .ok (cas, Assoc.put (bucket, id) (writtenRow content count expiry) t) := by
  obtain ⟨cell, hbind, hnull, hkeep⟩ := bind_of_follows hfound h 5
  have hnext : nextCount (t.lookup bucket id) = pure cas := nextCount_of_follows h
  have hcount : Cell.bind 5 cas = pure cell := hbind
  have hcheck : DocumentRow.check ⟨.text (kindOf content), .blob content.bytes, cell, .int expiry⟩ =
      pure (writtenRow content count expiry) := by
    rw [← hkeep]
    cases cell with
    | null => exact absurd rfl hnull
    | _ => rfl
  have hlast : Cell.bind 6 (.int expiry) = pure (.int expiry) := bind_expiry hexpiry 6
  rw [upsert_eq_bind, hnext, pure_bind, hcount, pure_bind, hlast, pure_bind, hcheck, pure_bind]
  rfl

theorem upsert_of_stuck (h : Stuck (t.lookup bucket id) fault) :
    t.upsert bucket id (kindOf content) content.bytes (.int expiry) = .error (.fault fault) := by
  rw [upsert_eq_bind]
  generalize t.lookup bucket id = found at h
  cases h with
  | last hcas =>
    rw [nextCount, DocumentRow.nextCas, hcas]
    rfl
  | text hcas =>
    rw [nextCount, DocumentRow.nextCas, hcas]
    rfl
  | blob hcas =>
    rw [nextCount, DocumentRow.nextCas, hcas]
    rfl

end DocumentTable

/-! ## Stores -/

namespace SqliteStore

variable {store : SqliteStore} {s s' : Storage} {n : Nat} {d : Database} {t : DocumentTable} {id : String}
  {content : Content} {expiry : Int}

/-- Writes a document of either kind. -/
def put (store : SqliteStore) (id : String) (content : Content) (expiry : Int) : Action Storage Value :=
  match content with
  | .json text => store.upsertJson id text (.int expiry)
  | .binary bytes => store.upsertBinary id bytes (.int expiry)

/-- What a write of a document does to the database. -/
def writing (store : SqliteStore) (id : String) (content : Content) (expiry : Int) :
    Database → Except Failure (Value × Database) :=
  store.upserting id (DocumentTable.kindOf content) content.bytes (.int expiry)

theorem put_eq (store : SqliteStore) (id : String) (content : Content) (expiry : Int) :
    ∃ doing, store.put id content expiry =
      asConnection doing (Storage.session store.path (store.writing id content expiry)) := by
  cases content with
  | json text => exact ⟨_, rfl⟩
  | binary bytes => exact ⟨_, rfl⟩

theorem exec_put_of_error {f : Failure} (hconnect : (Storage.connect store.path).exec s = (.ok n, s'))
    (hd : s'.files.databaseAt store.path.resolve = some d)
    (hwriting : store.writing id content expiry d = .error f) :
    ∃ doing, (store.put id content expiry).exec s = (.error (connectionFailure doing f), s') := by
  obtain ⟨doing, hput⟩ := store.put_eq id content expiry
  refine ⟨doing, ?_⟩
  rw [hput, exec_asConnection, Storage.exec_session_of_error hconnect hd hwriting]
  rfl

theorem writing_of_follows {cas : Value} {count : Cell} (ht : d.documents = some t)
    (hfound : ∀ r ∈ t.lookup store.bucket id, r.Admitted) (hexpiry : 0 ≤ expiry ∧ expiry < 2 ^ 32)
    (hfollows : DocumentTable.Follows (t.lookup store.bucket id) cas count) (content : Content) :
    store.writing id content expiry d = .ok (cas, { d with
      documents := some (Assoc.put (store.bucket, id) (DocumentTable.writtenRow content count expiry) t) }) := by
  rw [writing, upserting_of_table _ _ _ _ _ ht, DocumentTable.upsert_of_follows hfound hfollows hexpiry]
  rfl

theorem exec_put_of_stuck {fault : PlatformFault} (hconnect : (Storage.connect store.path).exec s = (.ok n, s'))
    (hd : s'.files.databaseAt store.path.resolve = some d) (ht : d.documents = some t)
    (hstuck : DocumentTable.Stuck (t.lookup store.bucket id) fault) (content : Content) (expiry : Int) :
    (store.put id content expiry).exec s = (.error (.fault fault), s') := by
  have hwriting : store.writing id content expiry d = .error (.fault fault) := by
    rw [writing, upserting_of_table _ _ _ _ _ ht, DocumentTable.upsert_of_stuck hstuck]
    rfl
  obtain ⟨doing, hexec⟩ := exec_put_of_error hconnect hd hwriting
  have hfault : connectionFailure doing (.fault fault) = .fault fault := by
    apply if_neg
    change ¬ fault.isSql = true
    rw [hstuck.isSql_eq_false]
    exact Bool.false_ne_true
  rw [hexec, hfault]

/-- One row of a table is as given, and the others are as they were. -/
structure Replaced (bucket id : String) (row : DocumentRow) (before after : DocumentTable) : Prop where
  row : after.lookup bucket id = some row
  others : ∀ bucket' id', (bucket', id') ≠ (bucket, id) → after.lookup bucket' id' = before.lookup bucket' id'

theorem replaced_put (bucket id : String) (row : DocumentRow) (t : DocumentTable) :
    Replaced bucket id row t (Assoc.put (bucket, id) row t) where
  row := Assoc.get?_put_self _ _ _
  others _ _ hother := Assoc.get?_put_of_ne (Ne.symm hother) _ _

/-- What becomes of a write that has a count to give, by what another program does with the file. -/
inductive Ended (key : Path) (before : Database) (cas : Value) (written : Database) (s : Storage) :
    Except Failure Value → Storage → Prop
  | saved : Assoc.get? key s.holds = none → Ended key before cas written s (.ok cas) (s.withSaved key written)
  | pending {f : Failure} : Assoc.get? key s.holds = some .reading → f.IsOf .connection →
      Ended key before cas written s (.error f) (s.withPending key before written)
  | refused {f : Failure} : Assoc.get? key s.holds = some .writing → f.IsOf .connection →
      Ended key before cas written s (.error f) s

theorem ended_of_follows {cas : Value} {written : Database}
    (hconnect : (Storage.connect store.path).exec s = (.ok n, s'))
    (hd : s'.files.databaseAt store.path.resolve = some d)
    (hwriting : store.writing id content expiry d = .ok (cas, written)) :
    Ended store.path.resolve d cas written s' ((store.put id content expiry).exec s).1
      ((store.put id content expiry).exec s).2 := by
  obtain ⟨doing, hput⟩ := store.put_eq id content expiry
  rw [hput, exec_asConnection]
  cases hhold : Assoc.get? store.path.resolve s'.holds with
  | none =>
    rw [Storage.exec_session_of_unheld hconnect hd hwriting hhold]
    exact .saved hhold
  | some hold =>
    cases hold with
    | reading =>
      rw [Storage.exec_session_of_reading hconnect hd hwriting hhold]
      exact .pending hhold ⟨_, rfl, rfl⟩
    | writing =>
      rw [Storage.exec_session_of_writing hconnect hd hwriting hhold]
      exact .refused hhold ⟨_, rfl, rfl⟩

/-- A write to a table that holds anything that its columns take. Where a count follows, its row takes the place of the
one of its bucket and id, and all else in the storage stays. While no other program holds the file the write gives that
count, and everything is committed. While another one reads, it fails as stores do, though its row is there for later
reads, until closing the connection takes it back; while another one writes, it fails so and changes nothing. Where no
count follows, it fails with an error that is none of a store, and everything is as it was. Without the table it fails
as stores do. -/
theorem puts_replace_or_fail (hconnect : (Storage.connect store.path).exec s = (.ok n, s'))
    (hd : s'.files.databaseAt store.path.resolve = some d)
    (hadmitted : ∀ t ∈ d.documents, ∀ r ∈ t.lookup store.bucket id, r.Admitted) (content : Content)
    (hexpiry : 0 ≤ expiry ∧ expiry < 2 ^ 32) :
    let key := store.path.resolve
    let ended := ((store.put id content expiry).exec s).1
    let after := ((store.put id content expiry).exec s).2
    (∀ t ∈ d.documents,
      (∃ cas count t', DocumentTable.Follows (t.lookup store.bucket id) cas count ∧
        Replaced store.bucket id (DocumentTable.writtenRow content count expiry) t t' ∧
        ((Assoc.get? key s'.holds = none ∧ ended = .ok cas ∧
            after.files.databaseAt key = some { d with documents := some t' } ∧
            Assoc.get? key after.uncommitted = none ∧ s'.Changes {.documents key} after) ∨
          (Assoc.get? key s'.holds = some .reading ∧ (∃ f, ended = .error f ∧ f.IsOf .connection) ∧
            after.files.databaseAt key = some { d with documents := some t' } ∧
            after.rollBack key = s'.rollBack key ∧ s'.Changes {.documents key} after) ∨
          (Assoc.get? key s'.holds = some .writing ∧ (∃ f, ended = .error f ∧ f.IsOf .connection) ∧ after = s'))) ∨
      ∃ fault, DocumentTable.Stuck (t.lookup store.bucket id) fault ∧ ended = .error (.fault fault) ∧
        (Failure.fault fault).isKindOf .store = false ∧ after = s') ∧
    (d.documents = none → (∃ f, ended = .error f ∧ f.IsOf .connection) ∧ after = s') := by
  intro key ended after
  have hdatabase := FileTree.database_of_databaseAt hd
  have hplace := (FileTree.database_eq_ok hdatabase).1
  constructor
  · intro t ht
    rcases DocumentTable.follows_or_stuck (hadmitted t ht) with ⟨cas, count, hfollows⟩ | ⟨fault, hstuck⟩
    · left
      refine ⟨cas, count, _, hfollows, replaced_put _ _ _ t, ?_⟩
      have hended := ended_of_follows hconnect hd (writing_of_follows ht (hadmitted t ht) hexpiry hfollows content)
      change Ended key d cas _ s' ended after at hended
      generalize ended = r, after = u at hended
      cases hended with
      | saved hhold =>
        exact .inl ⟨hhold, rfl, (FileTree.putDatabase_spec hplace _).self, Assoc.get?_erase_self key _,
          Storage.changes_withSaved hdatabase (.withDocuments key d _)⟩
      | pending hhold hf =>
        exact .inr (.inl ⟨hhold, ⟨_, rfl, hf⟩, (FileTree.putDatabase_spec hplace _).self,
          Storage.rollBack_withPending hd _,
          Storage.changes_withPending hdatabase (.withDocuments key d _) (by rw [hhold]; rfl)⟩)
      | refused hhold hf => exact .inr (.inr ⟨hhold, ⟨_, rfl, hf⟩, rfl⟩)
    · have hexec := exec_put_of_stuck hconnect hd ht hstuck content expiry
      right
      exact ⟨fault, hstuck, congrArg Prod.fst hexec, rfl, congrArg Prod.snd hexec⟩
  · intro hnone
    have hwriting : store.writing id content expiry d = .error (Database.noSuchTable "documents") := by
      rw [writing, upserting, Database.documentTable, hnone]
      rfl
    obtain ⟨doing, hexec⟩ := exec_put_of_error hconnect hd hwriting
    exact ⟨⟨_, congrArg Prod.fst hexec, _, rfl, rfl⟩, congrArg Prod.snd hexec⟩

/-- A write over a row with a count, one over a row that holds a text in its place, and the first of them while another
program reads the file. -/
theorem puts_replace_or_fail_foreign :
    let users : SqliteStore := ⟨.ofText "/documents.db", "users"⟩
    let counted : DocumentRow := ⟨.text "json", .text "é", .int 7, .int 0⟩
    let worded : DocumentRow := ⟨.text "binary", .blob ⟨#[255]⟩, .text "seven", .int 0⟩
    let t : DocumentTable := [(("users", "a"), counted), (("users", "b"), worded)]
    let s := storageOf users.path t
    let held : Storage := { s with holds := [(users.path.resolve, .reading)] }
    let d : Database := { documents := some t }
    let row : DocumentRow := ⟨.text "binary", .blob ⟨#[1]⟩, .int 8, .int 5⟩
    let put := users.put "a" (.binary ⟨#[1]⟩) 5
    (Storage.connect users.path).exec s = (.ok 0, s) ∧
    s.files.databaseAt users.path.resolve = some d ∧
    (∀ id, ∀ t ∈ d.documents, ∀ r ∈ t.lookup users.bucket id, r.Admitted) ∧
    (put.exec s).1 = .ok (.int 8) ∧
    (∃ t', (put.exec s).2.files.databaseAt users.path.resolve = some { d with documents := some t' } ∧
      Replaced "users" "a" row t t') ∧
    (users.put "b" (.json "é") 5).exec s = (.error (.fault .wrongType), s) ∧
    (∃ f, (put.exec held).1 = .error f ∧ f.IsOf .connection) ∧
    (∃ t', (put.exec held).2.files.databaseAt users.path.resolve = some { d with documents := some t' } ∧
      Replaced "users" "a" row t t') ∧
    (put.exec held).2.rollBack users.path.resolve = held := by
  intro users counted worded t s held d row put
  have hconnect : (Storage.connect users.path).exec s = (.ok 0, s) := exec_connect_storageOf users.path t
  obtain ⟨n, hconnectHeld⟩ : ∃ n, (Storage.connect users.path).exec held = (.ok n, held) := by
    apply Storage.exec_connect_of_has
    exact ⟨by decide +kernel, by decide +kernel⟩
  have hd : s.files.databaseAt users.path.resolve = some d := rfl
  have hdHeld : held.files.databaseAt users.path.resolve = some d := rfl
  have hcounted : counted.Admitted := by
    refine ⟨counted, ?_, rfl⟩
    simp only [counted, DocumentRow.columns, List.forall_mem_cons]
    exact ⟨⟨3, .text "json", rfl⟩, ⟨4, .text "é", rfl⟩, ⟨5, .int 7, rfl⟩, ⟨6, .int 0, rfl⟩, nofun⟩
  have hworded : worded.Admitted := by
    refine ⟨worded, ?_, rfl⟩
    simp only [worded, DocumentRow.columns, List.forall_mem_cons]
    exact ⟨⟨3, .text "binary", rfl⟩, ⟨4, .bytes ⟨#[255]⟩, rfl⟩, ⟨5, .text "seven", rfl⟩, ⟨6, .int 0, rfl⟩,
      nofun⟩
  have hadmitted (id : String) : ∀ t ∈ d.documents, ∀ r ∈ t.lookup users.bucket id, r.Admitted := by
    intro t' ht r hr
    cases ht
    obtain ⟨e, he, rfl⟩ := Assoc.exists_mem_of_get? hr
    simp only [t, List.mem_cons, List.not_mem_nil, or_false] at he
    rcases he with rfl | rfl
    · exact hcounted
    · exact hworded
  have hexpiry : (0 : Int) ≤ 5 ∧ (5 : Int) < 2 ^ 32 := by decide
  have hcountedEnds {cas : Value} {count : Cell}
      (h : DocumentTable.Follows (t.lookup users.bucket "a") cas count) : cas = .int 8 ∧ count = .int 8 := by
    have hfound : t.lookup users.bucket "a" = some counted := rfl
    rw [hfound] at h
    cases h with
    | integer hn _ =>
      cases hn
      exact ⟨rfl, rfl⟩
    | real hx => cases hx
  have hcountedStuck {fault : PlatformFault} (h : DocumentTable.Stuck (t.lookup users.bucket "a") fault) : False := by
    have hfound : t.lookup users.bucket "a" = some counted := rfl
    rw [hfound] at h
    cases h with
    | last hn => cases hn
    | text hs => cases hs
    | blob hb => cases hb
  refine ⟨hconnect, hd, hadmitted, ?_⟩
  have hfree : Assoc.get? users.path.resolve s.holds = none := rfl
  have hread : Assoc.get? users.path.resolve held.holds = some .reading := by decide +kernel
  have ha := (puts_replace_or_fail hconnect hd (hadmitted "a") (.binary ⟨#[1]⟩) hexpiry).1 t rfl
  have hb := (puts_replace_or_fail hconnect hd (hadmitted "b") (.json "é") hexpiry).1 t rfl
  have hc := (puts_replace_or_fail hconnectHeld hdHeld (hadmitted "a") (.binary ⟨#[1]⟩) hexpiry).1 t rfl
  rw [hfree] at ha
  rw [hread] at hc
  rcases ha with ⟨cas, count, t₁, hfollows, hreplaced, ⟨-, hcas, hafter, -⟩ | ⟨⟨⟩, -⟩ | ⟨⟨⟩, -⟩⟩ | ⟨_, hstuck, -⟩
  · obtain ⟨rfl, rfl⟩ := hcountedEnds hfollows
    refine ⟨hcas, ⟨t₁, hafter, hreplaced⟩, ?_⟩
    rcases hb with ⟨_, _, _, hfollows, -⟩ | ⟨fault, hstuck, hended, -, hsame⟩
    · have hfound : t.lookup users.bucket "b" = some worded := rfl
      rw [hfound] at hfollows
      cases hfollows with
      | integer hn _ => cases hn
      | real hx => cases hx
    have hfound : t.lookup users.bucket "b" = some worded := rfl
    rw [hfound] at hstuck
    cases hstuck with
    | last hn => cases hn
    | blob hb => cases hb
    | text hs =>
      refine ⟨Prod.ext hended hsame, ?_⟩
      rcases hc with ⟨cas, count, t₂, hfollows, hreplaced, ⟨⟨⟩, -⟩ | ⟨-, hfailed, hafter, hback, -⟩ | ⟨⟨⟩, -⟩⟩ |
        ⟨_, hstuck, -⟩
      · obtain ⟨rfl, rfl⟩ := hcountedEnds hfollows
        exact ⟨hfailed, ⟨t₂, hafter, hreplaced⟩, hback⟩
      · exact (hcountedStuck hstuck).elim
  · exact (hcountedStuck hstuck).elim

/-- After the last integer of 64 bits there is no count, and after a text neither. The writes end in errors that are
none of a store. -/
theorem count_at_its_end :
    let users : SqliteStore := ⟨.ofText "/documents.db", "users"⟩
    let last : DocumentRow := ⟨.text "json", .blob ⟨#[]⟩, .int 9223372036854775807, .int 0⟩
    let worded : DocumentRow := ⟨.text "json", .blob ⟨#[]⟩, .text "seven", .int 0⟩
    let s := storageOf users.path [(("users", "last"), last), (("users", "worded"), worded)]
    last.check = .ok last ∧ worded.check = .ok worded ∧
    (users.upsertJson "last" "[]").exec s = (.error (.fault .overflow), s) ∧
    (users.upsertBinary "worded" ⟨#[]⟩).exec s = (.error (.fault .wrongType), s) ∧
    (Failure.fault .overflow).isKindOf .store = false ∧ (Failure.fault .wrongType).isKindOf .store = false := by
  intro users last worded s
  refine ⟨rfl, rfl, ?_, ?_, rfl, rfl⟩
  · rfl
  · rfl

end SqliteStore

end DocFetch
