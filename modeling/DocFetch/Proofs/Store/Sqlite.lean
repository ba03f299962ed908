import DocFetch.Proofs.Store.Written
import DocFetch.Proofs.World.Reopening

/-! # Documents in a database file

However many stores write to one file, and however often its connection is closed in between, each document is
read as it was last written in its bucket, with the count of its writes.
-/

namespace DocFetch

/-! ## Rows -/

namespace DocumentTable

def kindOf : Content → String
  | .json _ => "json"
  | .binary _ => "binary"

/-- The row of a write. -/
def rowOf (w : Written) : DocumentRow :=
  ⟨.text (kindOf w.content), .blob w.content.bytes, .int w.cas, .int w.expiry⟩

variable {w : Written}

theorem readText_rowOf (h : w.InRange) (bucket id : String) :
    (rowOf w).readText id = Written.readJson bucket id (some w) := by
  obtain ⟨content, cas, expiry⟩ := w
  unfold DocumentRow.readText
  cases content with
  | json text =>
    have hkind : ((rowOf ⟨.json text, cas, expiry⟩).kind == .text "json") = true := by simp [rowOf, kindOf]
    have hbytes : (rowOf ⟨.json text, cas, expiry⟩).bytes = pure (Text.encodeUtf8 text) := rfl
    rw [hbytes, pure_bind, hkind, Text.decodeUtf8?_encodeUtf8]
    exact Written.ofStored_eq h id text
  | binary bytes =>
    have hkind : ((rowOf ⟨.binary bytes, cas, expiry⟩).kind == .text "json") = false := by simp [rowOf, kindOf]
    have hbytes : (rowOf ⟨.binary bytes, cas, expiry⟩).bytes = .ok bytes := rfl
    have hmessage : "Document " ++ Text.quoted id ++ " is stored as " ++
        (rowOf ⟨.binary bytes, cas, expiry⟩).kind.display ++ ", not JSON" =
          "Document " ++ Text.quoted id ++ " is stored as binary, not JSON" := by
      rw [String.append_assoc, String.append_assoc]
      rfl
    rw [hbytes, hkind, hmessage]
    rfl

private theorem bind_int (position : Nat) {n : Nat} (h : n < 2 ^ 63) :
    Cell.bind position (.int n) = .ok (.int n) := by
  have hfits : Cell.fitsInt64 n = true := by
    unfold Cell.fitsInt64
    rw [Bool.and_eq_true, decide_eq_true_eq, decide_eq_true_eq]
    omega
  unfold Cell.bind
  dsimp only
  rw [if_pos hfits]

theorem readBytes_rowOf (h : w.InRange) (bucket id : String) :
    (rowOf w).readBytes id = Written.readBinary bucket id (some w) :=
  Written.ofStored_eq h id w.content.bytes

/-- The count of the last write, none for a document that is new. -/
def countOf (last : Option Written) : Nat := (last.map Written.cas).getD 0

theorem upsert_eq {t : DocumentTable} {bucket id : String} {last : Option Written}
    (h : t.lookup bucket id = last.map rowOf) (content : Content) {expiry : Nat} (hexpiry : expiry < 2 ^ 32)
    (hcount : countOf last + 1 < 2 ^ 63) :
    t.upsert bucket id (kindOf content) content.bytes (.int expiry) =
      .ok (.int (countOf last + 1 : Nat),
        Assoc.put (bucket, id) (rowOf ⟨content, countOf last + 1, expiry⟩) t) := by
  have hnull : (Value.int expiry == .null) = false := rfl
  have hcheck : DocumentRow.check
      ⟨.text (kindOf content), .blob content.bytes, .int (countOf last + 1 : Nat), .int expiry⟩ =
        .ok (rowOf ⟨content, countOf last + 1, expiry⟩) := rfl
  have hrest : (do
      let count ← Cell.bind 5 (.int (countOf last + 1 : Nat))
      let expiry ← Cell.bind 6 (.int expiry)
      let row ← DocumentRow.check ⟨.text (kindOf content), .blob content.bytes, count, expiry⟩
      return (Value.int (countOf last + 1 : Nat), Assoc.put (bucket, id) row t)) =
        .ok (.int (countOf last + 1 : Nat),
          Assoc.put (bucket, id) (rowOf ⟨content, countOf last + 1, expiry⟩) t) := by
    rw [bind_int 5 hcount, bind_int 6 (hexpiry.trans (by decide))]
    exact congrArg (· >>= fun row => pure (_, Assoc.put (bucket, id) row t)) hcheck
  unfold upsert
  rw [h, hnull, if_neg Bool.false_ne_true]
  cases last with
  | none =>
    have hone : (.ok (.int 1) : Except Failure Value) = pure (.int (countOf none + 1 : Nat)) := rfl
    dsimp only [Option.map_none]
    rw [hone, pure_bind]
    exact hrest
  | some w =>
    have hnext : (rowOf w).nextCas = pure (.int (countOf (some w) + 1 : Nat)) := rfl
    dsimp only [Option.map_some]
    rw [hnext, pure_bind]
    exact hrest

end DocumentTable

/-! ## Stores -/

namespace SqliteStore

variable {α : Type} {s : SqliteStore} {st st' : Storage} {id : String}

theorem exec_asConnection_congr {a : Action Storage α} (h : a.exec st = a.exec st') (doing : String) :
    (asConnection doing a).exec st = (asConnection doing a).exec st' := by
  rw [exec_asConnection, exec_asConnection, h]

theorem exec_row_bind_of_reopens (s : SqliteStore) (h : st.files.Reopens s.path.resolve) (id : String)
    (g : DocumentRow → Except Failure α) :
    ∃ st', (s.row id >>= fun r => Action.ofExcept (g r)).exec st =
      (s.rowIn (st.files.documentsAt s.path.resolve) id >>= g, st') ∧ st.Changes ∅ st' := by
  obtain ⟨u, hchanges, hconnected, htransact⟩ := Storage.transact_of_reopens h
  have hrow : (s.row id).exec st = (s.row id).exec u := by
    obtain ⟨doing, hrow⟩ := s.row_eq id
    have hlook : (s.lookUp id).exec st = (s.lookUp id).exec u := htransact _
    rw [hrow, Action.exec_bind, Action.exec_bind, exec_asConnection_congr hlook]
  obtain ⟨st', hexec, hread⟩ := s.exec_row_bind_of_connected hconnected id g
  refine ⟨st', ?_, hchanges.trans hread⟩
  rw [← hchanges.files.documents _ (Set.notMem_empty _), ← hexec, Action.exec_bind, Action.exec_bind, hrow]

/-- What a write does to the database. -/
def upserting (s : SqliteStore) (id kind : String) (content : ByteArray) (expiry : Value) (d : Database) :
    Except Failure (Value × Database) := do
  let (cas, t) ← (← d.documentTable).upsert s.bucket id kind content expiry
  return (cas, { d with documents := some t })

theorem upsert_eq (s : SqliteStore) (id kind : String) (content : ByteArray) (expiry : Value) :
    ∃ doing, s.upsert id kind content expiry =
      asConnection doing (Storage.session s.path (s.upserting id kind content expiry)) := ⟨_, rfl⟩

theorem upserting_of_table (s : SqliteStore) (id kind : String) (content : ByteArray) (expiry : Value) {d : Database}
    {before : DocumentTable} (h : d.documents = some before) :
    s.upserting id kind content expiry d =
      (before.upsert s.bucket id kind content expiry).map fun (cas, t) => (cas, { d with documents := some t }) := by
  have htable : d.documentTable = pure before := by
    rw [Database.documentTable, h]
    rfl
  rw [upserting, htable, pure_bind]
  cases before.upsert s.bucket id kind content expiry <;> rfl

/-- A write to a database that can be opened, and that no other program holds, changes its documents as the table
says. -/
theorem exec_upsert_of_reopens (h : st.files.Reopens s.path.resolve)
    (hunheld : Assoc.get? s.path.resolve st.holds = none) {kind : String} {content : ByteArray} {expiry cas : Value}
    {t : DocumentTable}
    (hwrite : (st.files.documentsAt s.path.resolve).upsert s.bucket id kind content expiry = .ok (cas, t)) :
    ∃ st', (s.upsert id kind content expiry).exec st = (.ok cas, st') ∧
      st.Changes {.documents s.path.resolve} st' ∧ st'.files.documentsAt s.path.resolve = t := by
  obtain ⟨n, u, hconnect, hchanges, -, d, hd, hdocuments, -⟩ := Storage.connect_of_reopens h
  obtain ⟨doing, hupsert⟩ := s.upsert_eq id kind content expiry
  obtain ⟨before, hbefore⟩ := Option.isSome_iff_exists.mp hdocuments
  have hat : st.files.documentsAt s.path.resolve = before := by
    rw [← hchanges.files.documents _ (Set.notMem_empty _), FileTree.documentsAt, hd, Option.bind_some, hbefore,
      Option.getD_some]
  rw [hat] at hwrite
  have hupserting : s.upserting id kind content expiry d = .ok (cas, { d with documents := some t }) := by
    rw [s.upserting_of_table id kind content expiry hbefore, hwrite]
    rfl
  have hfree : Assoc.get? s.path.resolve u.holds = none := by rw [hchanges.holds, hunheld]
  have hexec := Storage.exec_session_of_unheld hconnect hd hupserting hfree
  have hdatabase := FileTree.database_of_databaseAt hd
  have hput := (FileTree.putDatabase_spec (FileTree.database_eq_ok hdatabase).1
    { d with documents := some t }).self
  refine ⟨u.withSaved s.path.resolve { d with documents := some t }, ?_, ?_, ?_⟩
  · rw [hupsert, exec_asConnection, hexec]
    rfl
  · exact (hchanges.mono (Set.empty_subset _)).trans (Storage.changes_withSaved hdatabase (.withDocuments _ d t))
  · rw [Storage.files_withSaved, FileTree.documentsAt, hput]
    rfl

theorem exec_openAt_of_reopens {path : Path} (h : st.files.Reopens path.resolve) (bucket : String) :
    ∃ st', (openAt path bucket).exec st = (.ok { path, bucket }, st') ∧ st.Changes ∅ st' := by
  obtain ⟨n, st', hconnect, hchanges, -⟩ := Storage.connect_of_reopens h
  refine ⟨st', ?_, hchanges⟩
  unfold openAt
  rw [Action.exec_bind, Action.exec_discard, exec_asConnection, hconnect]
  rfl

theorem reopens_of_openAt {files : FileTree} {path : Path} {bucket : String}
    (h : (openAt path bucket).exec { files } = (.ok s, st)) : st.files.Reopens path.resolve := by
  unfold openAt at h
  obtain ⟨_, t, hopen, h⟩ := Action.exec_bind_eq_ok h
  cases h
  obtain ⟨n, hn⟩ := Action.exec_discard_eq_ok hopen
  rw [exec_asConnection] at hn
  rcases hconnect : (Storage.connect path).exec { files } with ⟨r, u⟩
  rw [hconnect] at hn
  cases r with
  | error e => cases hn
  | ok m =>
    cases hn
    exact Storage.reopens_of_connect hconnect

/-! ## Histories -/

/-- What is done to stores and to the connections that they share. -/
inductive Call
  | openAt (path : Path) (bucket : String)
  | write (store : SqliteStore) (id : String) (content : Content) (expiry : Nat)
  | readJson (store : SqliteStore) (id : String)
  | readBinary (store : SqliteStore) (id : String)
  | closeAll

inductive Answer
  | done
  | count (cas : Value)
  | json (document : Except Failure (Document String))
  | binary (document : Except Failure (Document ByteArray))

namespace Call

def perform : Call → Action Storage Answer
  | openAt path bucket => do
    discard <| SqliteStore.openAt path bucket
    return .done
  | write store id (.json text) expiry => return .count (← store.upsertJson id text (.int expiry))
  | write store id (.binary bytes) expiry => return .count (← store.upsertBinary id bytes (.int expiry))
  | readJson store id => return .json (← (store.getJson id).attempt)
  | readBinary store id => return .binary (← (store.getBinary id).attempt)
  | closeAll => do
    modify Storage.closeAll
    return .done

/-- Whether a call works on a file, with an expiry that can be given back. -/
def On (file : Path) : Call → Prop
  | openAt path _ => path.resolve = file
  | write store _ _ expiry => store.path.resolve = file ∧ expiry < 2 ^ 32
  | readJson store _ => store.path.resolve = file
  | readBinary store _ => store.path.resolve = file
  | closeAll => True

/-- What a call writes as one document of a bucket. -/
def written (bucket id : String) : Call → Option (Content × Nat)
  | write store other content expiry =>
    if store.bucket = bucket ∧ other = id then some (content, expiry) else none
  | _ => none

end Call

/-- The writes of one document. -/
def writes (calls : List Call) (bucket id : String) : List (Content × Nat) :=
  calls.filterMap (Call.written bucket id)

/-- The last write of a document; its count is the number of them. -/
def lastWrite (calls : List Call) (bucket id : String) : Option Written :=
  (writes calls bucket id).getLast?.map fun w => ⟨w.1, (writes calls bucket id).length, w.2⟩

/-- What a call answers, by the calls before it. -/
def answer (before : List Call) : Call → Answer
  | .openAt .. => .done
  | .write store id .. => .count (.int ((writes before store.bucket id).length + 1 : Nat))
  | .readJson store id => .json (Written.readJson store.bucket id (lastWrite before store.bucket id))
  | .readBinary store id => .binary (Written.readBinary store.bucket id (lastWrite before store.bucket id))
  | .closeAll => .done

variable {calls done : List Call} {c : Call} {file : Path} {bucket : String}

theorem writes_append (calls rest : List Call) (bucket id : String) :
    writes (calls ++ rest) bucket id = writes calls bucket id ++ writes rest bucket id :=
  List.filterMap_append ..

theorem writes_concat (calls : List Call) (c : Call) (bucket id : String) :
    writes (calls ++ [c]) bucket id = writes calls bucket id ++ (c.written bucket id).toList := by
  rw [writes_append, writes, writes, List.filterMap_cons, List.filterMap_nil]
  cases c.written bucket id <;> rfl

theorem lastWrite_concat_none (h : c.written bucket id = none) :
    lastWrite (calls ++ [c]) bucket id = lastWrite calls bucket id := by
  unfold lastWrite
  rw [writes_concat, h, Option.toList_none, List.append_nil]

theorem lastWrite_concat_some {content : Content} {expiry : Nat}
    (h : c.written bucket id = some (content, expiry)) :
    lastWrite (calls ++ [c]) bucket id = some ⟨content, (writes calls bucket id).length + 1, expiry⟩ := by
  unfold lastWrite
  rw [writes_concat, h, Option.toList_some, List.getLast?_concat, List.length_append]
  rfl

theorem countOf_lastWrite (calls : List Call) (bucket id : String) :
    DocumentTable.countOf (lastWrite calls bucket id) = (writes calls bucket id).length := by
  unfold lastWrite
  cases h : (writes calls bucket id).getLast? with
  | none =>
    rw [List.getLast?_eq_none_iff.mp h]
    rfl
  | some w => rfl

theorem inRange_of_lastWrite (hon : ∀ c ∈ calls, c.On file)
    (hlength : (writes calls bucket id).length < 2 ^ 63) : ∀ w ∈ lastWrite calls bucket id, w.InRange := by
  intro w hw
  obtain ⟨⟨content, expiry⟩, hlast, rfl⟩ := Option.map_eq_some_iff.mp hw
  obtain ⟨c, hc, hwritten⟩ := List.mem_filterMap.mp (List.mem_of_getLast? hlast)
  refine ⟨hlength.trans (by decide), ?_⟩
  cases c with
  | write store other content' expiry' =>
    have hexpiry := (hon _ hc).2
    simp only [Call.written, Option.ite_none_right_eq_some, Option.some.injEq, Prod.mk.injEq] at hwritten
    rwa [← hwritten.2.2]
  | openAt | readJson | readBinary | closeAll => cases hwritten

/-- What calls leave in a file: the last write of every document. -/
structure Holds (file : Path) (calls : List Call) (st : Storage) : Prop where
  on : ∀ c ∈ calls, c.On file
  quiet : st.Quiet
  reopens : st.files.Reopens file
  row : ∀ bucket id,
    (st.files.documentsAt file).lookup bucket id = (lastWrite calls bucket id).map DocumentTable.rowOf

namespace Holds

theorem on_concat (h : Holds file done st) (hc : c.On file) : ∀ d ∈ done ++ [c], d.On file := by
  intro d hd
  rcases List.mem_append.mp hd with hdone | hlast
  · exact h.on d hdone
  · rwa [List.mem_singleton.mp hlast]

theorem unchanged (h : Holds file done st) (hc : c.On file) (hnone : ∀ bucket id, c.written bucket id = none)
    (hchanges : st.files.Changes ∅ st'.files) (hquiet : st'.Quiet) : Holds file (done ++ [c]) st' where
  on := h.on_concat hc
  quiet := hquiet
  reopens := h.reopens.changes hchanges (Set.notMem_empty _)
  row bucket id := by
    rw [hchanges.documents file (Set.notMem_empty _), h.row, lastWrite_concat_none (hnone bucket id)]

theorem read (h : Holds file done st) (hfile : s.path.resolve = file)
    (hlength : (writes done s.bucket id).length < 2 ^ 63) {g : DocumentRow → Except Failure α}
    {f : Option Written → Except Failure α} (hnone : f none = .error (missingFrom s.bucket id))
    (hsome : ∀ w : Written, w.InRange → g (DocumentTable.rowOf w) = f (some w)) :
    ∃ st', (s.row id >>= fun r => Action.ofExcept (g r)).exec st = (f (lastWrite done s.bucket id), st') ∧
      st.Changes ∅ st' := by
  obtain ⟨st', hexec, hchanges⟩ := s.exec_row_bind_of_reopens (hfile ▸ h.reopens) id g
  refine ⟨st', ?_, hchanges⟩
  rw [hexec, hfile, rowIn, h.row]
  cases hlast : lastWrite done s.bucket id with
  | none =>
    rw [hnone]
    rfl
  | some w => exact congrArg (·, st') (hsome w (inRange_of_lastWrite h.on hlength w hlast))

theorem openAt (h : Holds file done st) {path : Path} (hfile : path.resolve = file) (bucket : String) :
    ∃ st', (Call.openAt path bucket).perform.exec st = (.ok .done, st') ∧
      Holds file (done ++ [.openAt path bucket]) st' := by
  obtain ⟨st', hexec, hchanges⟩ := exec_openAt_of_reopens (hfile ▸ h.reopens) bucket
  refine ⟨st', ?_, h.unchanged hfile (fun _ _ => rfl) hchanges.files (hchanges.quiet h.quiet)⟩
  unfold Call.perform
  rw [Action.exec_bind, Action.exec_discard, hexec]
  rfl

theorem readJson (h : Holds file done st) (hfile : s.path.resolve = file)
    (hlength : (writes done s.bucket id).length < 2 ^ 63) :
    ∃ st', (Call.readJson s id).perform.exec st = (.ok (answer done (.readJson s id)), st') ∧
      Holds file (done ++ [.readJson s id]) st' := by
  obtain ⟨st', hexec, hchanges⟩ := h.read hfile hlength (g := fun r => r.readText id)
    (f := Written.readJson s.bucket id) rfl fun w hw => DocumentTable.readText_rowOf hw s.bucket id
  refine ⟨st', ?_, h.unchanged hfile (fun _ _ => rfl) hchanges.files (hchanges.quiet h.quiet)⟩
  unfold Call.perform
  rw [Action.exec_bind_ok (Action.exec_attempt _ st), getJson, hexec]
  rfl

theorem readBinary (h : Holds file done st) (hfile : s.path.resolve = file)
    (hlength : (writes done s.bucket id).length < 2 ^ 63) :
    ∃ st', (Call.readBinary s id).perform.exec st = (.ok (answer done (.readBinary s id)), st') ∧
      Holds file (done ++ [.readBinary s id]) st' := by
  obtain ⟨st', hexec, hchanges⟩ := h.read hfile hlength (g := fun r => r.readBytes id)
    (f := Written.readBinary s.bucket id) rfl fun w hw => DocumentTable.readBytes_rowOf hw s.bucket id
  refine ⟨st', ?_, h.unchanged hfile (fun _ _ => rfl) hchanges.files (hchanges.quiet h.quiet)⟩
  unfold Call.perform
  rw [Action.exec_bind_ok (Action.exec_attempt _ st), getBinary, hexec]
  rfl

theorem write (h : Holds file done st) (hfile : s.path.resolve = file) (content : Content) {expiry : Nat}
    (hexpiry : expiry < 2 ^ 32) (hlength : (writes done s.bucket id).length + 1 < 2 ^ 63) :
    ∃ st', (Call.write s id content expiry).perform.exec st =
        (.ok (answer done (.write s id content expiry)), st') ∧
      Holds file (done ++ [.write s id content expiry]) st' := by
  have hwrite := DocumentTable.upsert_eq (h.row s.bucket id) content hexpiry (by rwa [countOf_lastWrite])
  rw [countOf_lastWrite] at hwrite
  subst hfile
  obtain ⟨st', hexec, hchanges, htable⟩ := exec_upsert_of_reopens h.reopens (h.quiet.unheld _) hwrite
  refine ⟨st', ?_, ⟨h.on_concat ⟨rfl, hexpiry⟩, hchanges.quiet h.quiet, ?_, fun bucket other => ?_⟩⟩
  · have hcount : (Call.write s id content expiry).perform =
        s.upsert id (DocumentTable.kindOf content) content.bytes (.int expiry) >>= fun cas => pure (.count cas) := by
      cases content <;> rfl
    rw [hcount, Action.exec_bind_ok hexec]
    rfl
  · exact h.reopens.changes hchanges.files (by simp)
  · rw [htable]
    by_cases hkey : s.bucket = bucket ∧ id = other
    · obtain ⟨rfl, rfl⟩ := hkey
      rw [lastWrite_concat_some (c := .write s id content expiry) (if_pos ⟨rfl, rfl⟩)]
      exact Assoc.get?_put_self _ _ _
    · rw [lastWrite_concat_none (c := .write s id content expiry) (if_neg hkey), ← h.row]
      exact Assoc.get?_put_of_ne (fun heq => hkey (Prod.mk.inj heq)) _ _

theorem perform (h : Holds file done st) (hc : c.On file)
    (hlength : ∀ bucket id, (writes (done ++ [c]) bucket id).length < 2 ^ 63 - 1) :
    ∃ st', c.perform.exec st = (.ok (answer done c), st') ∧ Holds file (done ++ [c]) st' := by
  have hdone (bucket id : String) : (writes done bucket id).length + 1 < 2 ^ 63 := by
    have := hlength bucket id
    rw [writes_concat, List.length_append] at this
    omega
  cases c with
  | openAt path bucket => exact h.openAt hc bucket
  | write store id content expiry => exact h.write hc.1 content hc.2 (hdone _ _)
  | readJson store id => exact h.readJson hc ((Nat.lt_succ_self _).trans (hdone _ _))
  | readBinary store id => exact h.readBinary hc ((Nat.lt_succ_self _).trans (hdone _ _))
  | closeAll =>
    have hclosed := h.quiet.closeAll
    refine ⟨st.closeAll, rfl, h.unchanged trivial (fun _ _ => rfl) ?_ ?_⟩
    · rw [hclosed]
      exact .refl ∅ st.files
    · rw [hclosed]
      exact ⟨h.quiet.uncommitted, h.quiet.holds⟩

theorem performAll (h : Holds file done st) (hon : ∀ c ∈ calls, c.On file)
    (hlength : ∀ bucket id, (writes (done ++ calls) bucket id).length < 2 ^ 63 - 1) :
    ∃ answers st', (calls.mapM Call.perform).exec st = (.ok answers, st') ∧ answers.length = calls.length ∧
      ∀ before c after, calls = before ++ c :: after →
        answers[before.length]? = some (answer (done ++ before) c) := by
  -- what was done so far settles the next answer, so `done` grows along the calls
  induction calls generalizing done st with
  | nil => exact ⟨[], st, rfl, rfl, fun before c after hcalls => absurd hcalls (by simp)⟩
  | cons c rest ih =>
    have hsplit : done ++ c :: rest = done ++ [c] ++ rest := by simp
    have hfirst (bucket id : String) : (writes (done ++ [c]) bucket id).length < 2 ^ 63 - 1 := by
      have hall := hlength bucket id
      rw [hsplit, writes_append, List.length_append] at hall
      exact (Nat.le_add_right _ _).trans_lt hall
    obtain ⟨t, hperform, hnext⟩ := h.perform (hon c List.mem_cons_self) hfirst
    obtain ⟨answers, st', hrest, hcount, hanswers⟩ :=
      ih hnext (fun d hd => hon d (List.mem_cons_of_mem c hd)) (by rwa [← hsplit])
    refine ⟨answer done c :: answers, st', ?_, congrArg (· + 1) hcount, fun before d after hcalls => ?_⟩
    · rw [List.mapM_cons, Action.exec_bind_ok hperform, Action.exec_bind_ok hrest]
      rfl
    · cases before with
      | nil =>
        obtain ⟨rfl, -⟩ := List.cons.inj hcalls
        rw [List.append_nil]
        rfl
      | cons b before =>
        obtain ⟨rfl, htail⟩ := List.cons.inj hcalls
        rw [List.length_cons, List.getElem?_cons_succ, hanswers before d after htail, List.append_assoc]
        rfl

end Holds

/-- In a file without documents, each call to the stores on it is answered by the last write, before it, of the
document in its bucket. A write gives the count of those writes. -/
theorem answers_by_last_writes {files : FileTree} {path : Path} {bucket : String} {first : SqliteStore}
    (hopen : (SqliteStore.openAt path bucket).exec { files } = (.ok first, st))
    (hempty : files.documentsAt path.resolve = []) (calls : List Call) (hon : ∀ c ∈ calls, c.On path.resolve)
    (hlength : ∀ bucket id, (writes calls bucket id).length < 2 ^ 63 - 1) :
    ∃ answers st', (calls.mapM Call.perform).exec st = (.ok answers, st') ∧ answers.length = calls.length ∧
      ∀ before c after, calls = before ++ c :: after → answers[before.length]? = some (answer before c) := by
  have hchanges := (moves_openAt path bucket).of_exec hopen
  have hstart : Holds path.resolve [] st := by
    refine ⟨fun c hc => absurd hc List.not_mem_nil, hchanges.quiet ⟨rfl, rfl⟩, reopens_of_openAt hopen,
      fun bucket id => ?_⟩
    rw [hchanges.files.documents _ (by simp), hempty]
    rfl
  exact hstart.performAll hon hlength

/-- A document that is written through one path as text and, after the connections were closed, through another
as bytes. -/
theorem answers_by_last_writes_reopened :
    let users : SqliteStore := ⟨.ofText "/data/documents.db", "users"⟩
    let again : SqliteStore := ⟨.ofText "/data/jobs/../documents.db", "users"⟩
    let orders : SqliteStore := ⟨.ofText "/data/documents.db", "orders"⟩
    let calls : List Call := [.openAt again.path again.bucket, .write users "a" (.json "é") 7, .readJson again "a",
      .closeAll, .write again "a" (.binary ⟨#[255]⟩) 4294967295, .readJson users "a", .readBinary users "a",
      .readBinary orders "a"]
    ∃ st answers st', (SqliteStore.openAt users.path users.bucket).exec {} = (.ok users, st) ∧
      (FileTree.documentsAt {} users.path.resolve = []) ∧
      (∀ c ∈ calls, c.On users.path.resolve) ∧
      (∀ bucket id, (writes calls bucket id).length < 2 ^ 63 - 1) ∧
      (calls.mapM Call.perform).exec st = (.ok answers, st') ∧
      answers[1]? = some (.count (.int 1)) ∧
      answers[2]? = some (.json (.ok { content := "é", cas := .int 1, expiry := .int 7 })) ∧
      answers[4]? = some (.count (.int 2)) ∧
      answers[5]? = some (.json (.error (storedAsBinary "a"))) ∧
      answers[6]? = some (.binary (.ok { content := ⟨#[255]⟩, cas := .int 2, expiry := .int 4294967295 })) ∧
      answers[7]? = some (.binary (.error (missingFrom "orders" "a"))) := by
  intro users again orders calls
  obtain ⟨first, st, hopen, hfirst⟩ : ∃ first st, (SqliteStore.openAt users.path users.bucket).exec {} =
      (.ok first, st) ∧ decide (first = users) = true := Action.exec_eq_ok_of_any (by decide +kernel)
  rw [of_decide_eq_true hfirst] at hopen
  have hempty : FileTree.documentsAt {} users.path.resolve = [] := rfl
  have hsame : again.path.resolve = users.path.resolve := by decide +kernel
  have hon : ∀ c ∈ calls, c.On users.path.resolve := by
    simp only [calls, List.forall_mem_cons, Call.On, hsame]
    simp [orders, users]
  have hlength (bucket id : String) : (writes calls bucket id).length < 2 ^ 63 - 1 :=
    lt_of_le_of_lt (List.length_filterMap_le _ _) (by decide)
  obtain ⟨answers, st', hexec, -, hanswers⟩ := answers_by_last_writes hopen hempty calls hon hlength
  refine ⟨st, answers, st', hopen, hempty, hon, hlength, hexec, ?_, ?_, ?_, ?_, ?_, ?_⟩
  · exact hanswers (calls.take 1) _ (calls.drop 2) rfl
  · exact hanswers (calls.take 2) _ (calls.drop 3) rfl
  · exact hanswers (calls.take 4) _ (calls.drop 5) rfl
  · exact hanswers (calls.take 5) _ (calls.drop 6) rfl
  · exact hanswers (calls.take 6) _ (calls.drop 7) rfl
  · exact hanswers (calls.take 7) _ (calls.drop 8) rfl

end SqliteStore

end DocFetch
