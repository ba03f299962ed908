import DocFetch.Fetch.Basic
import DocFetch.Proofs.Store.Written
import DocFetch.Store.Memory

/-! # Numbers of documents in memory

A store in memory takes any expiry and counts its writes without end, and only a read looks at the numbers. After any
writes and removals, the last write of a document tells whether reading it ends as it does with every store.
-/

namespace DocFetch

variable {α : Type}

/-- Whether a read ends as stores promise: with a document or with an error of theirs. -/
def EndsAsStore (r : Except Failure α) : Prop := ∀ f, r = .error f → f.isKindOf .store = true

theorem endsAsStore_ok (v : α) : EndsAsStore (.ok v : Except Failure α) := nofun

theorem endsAsStore_error_iff {f : Failure} : EndsAsStore (.error f : Except Failure α) ↔ f.isKindOf .store = true := by
  simp [EndsAsStore]

theorem endsAsStore_map_iff {β : Type} {g : α → β} {r : Except Failure α} :
    EndsAsStore (r.map g) ↔ EndsAsStore r := by
  cases r <;> simp [EndsAsStore, Except.map]

theorem Document.endsAsStore_make_iff {c e : Int} (content : α) :
    EndsAsStore (make content (.int c) (.int e)) ↔ InRange c e := by
  by_cases h : InRange c e
  · rw [make_int h]
    exact iff_of_true (endsAsStore_ok _) h
  · obtain ⟨reason, hmake⟩ := make_int_of_not_inRange h content
    rw [hmake, endsAsStore_error_iff]
    exact iff_of_false Bool.false_ne_true h

/-- A fetch goes on after just those reads that end as a store does. -/
theorem FetchResult.exists_ofRead_iff {r : Except Failure (Document ByteArray)} :
    (∃ result, ofRead r = .ok result) ↔ EndsAsStore r := by
  cases r with
  | ok d => exact iff_of_true ⟨_, rfl⟩ (endsAsStore_ok d)
  | error f =>
    rw [endsAsStore_error_iff]
    by_cases hstore : f.isKindOf .store = true
    · refine iff_of_true ?_ hstore
      cases f with
      | fetch e =>
        cases hmissing : e.family.isKindOf .notFound with
        | true => exact ⟨_, ofRead_notFound hmissing⟩
        | false => exact ⟨_, ofRead_store hstore hmissing⟩
      | _ => cases hstore
    · rw [ofRead_outside (Bool.not_eq_true _ ▸ hstore)]
      exact iff_of_false (by simp) hstore

namespace MemoryStore

/-- A write of a document, or its removal. -/
inductive Edit
  | put (id : String) (content : Content) (expiry : Int)
  | remove (id : String)

def Edit.isPut : Edit → Bool
  | put .. => true
  | remove _ => false

/-- The store after an edit; a removal that fails leaves it as it is. -/
def edit (m : MemoryStore) : Edit → MemoryStore
  | .put id (.json text) expiry => (m.upsertJson id text (.int expiry)).2
  | .put id (.binary bytes) expiry => (m.upsertBinary id bytes (.int expiry)).2
  | .remove id => (m.remove id).toOption.getD m

/-- A write with the count of all writes up to it. -/
structure Put where
  content : Content
  count : Nat
  expiry : Int

namespace Put

def IsText (p : Put) : Prop := ∃ text, p.content = .json text

def InRange (p : Put) : Prop := Document.InRange p.count p.expiry

/-- How a write is kept. -/
def entry (p : Put) : MemoryEntry :=
  ⟨match p.content with | .json _ => true | .binary _ => false, p.content.bytes, p.count, .int p.expiry⟩

@[simp] theorem cas_entry (p : Put) : p.entry.cas = p.count := rfl

@[simp] theorem expiry_entry (p : Put) : p.entry.expiry = .int p.expiry := rfl

end Put

/-- The last write of a document, unless it was removed since. The newest edit comes first. -/
def lastOf (id : String) : List Edit → Option Put
  | [] => none
  | .put other content expiry :: older =>
    if other = id then some ⟨content, older.countP Edit.isPut + 1, expiry⟩ else lastOf id older
  | .remove other :: older => if other = id then none else lastOf id older

/-- The last write of a document in edits from the first on. -/
def lastPut (edits : List Edit) (id : String) : Option Put := lastOf id edits.reverse

theorem edit_put (m : MemoryStore) (id : String) (content : Content) (expiry : Int) :
    m.edit (.put id content expiry) = { m with
      entries := Assoc.put id (Put.entry ⟨content, m.written + 1, expiry⟩) m.entries
      written := m.written + 1 } := by
  cases content <;> rfl

theorem edit_remove (m : MemoryStore) (id : String) :
    ∃ entries, m.edit (.remove id) = { m with entries } ∧
      ∀ other, Assoc.get? other entries = if id = other then none else Assoc.get? other m.entries := by
  have hedit : m.edit (.remove id) = (m.remove id).toOption.getD m := rfl
  rw [hedit, remove]
  by_cases h : Assoc.contains id m.entries = true
  · rw [if_pos h]
    refine ⟨Assoc.erase id m.entries, rfl, ?_⟩
    intro other
    by_cases hid : id = other
    · rw [if_pos hid, hid]
      exact Assoc.get?_erase_self other m.entries
    · rw [if_neg hid]
      exact Assoc.get?_erase_of_ne hid m.entries
  · rw [if_neg h]
    rw [Assoc.contains_iff, Option.not_isSome_iff_eq_none] at h
    refine ⟨m.entries, rfl, ?_⟩
    intro other
    by_cases hid : id = other
    · rw [if_pos hid, ← hid, h]
    · rw [if_neg hid]

/-- What a store keeps of edits, the newest first. -/
structure Keeps (bucket : String) (newest : List Edit) (m : MemoryStore) : Prop where
  bucket : m.bucket = bucket
  written : m.written = newest.countP Edit.isPut
  entry : ∀ id, Assoc.get? id m.entries = (lastOf id newest).map Put.entry

namespace Keeps

variable {bucket : String} {older : List Edit} {m : MemoryStore}

theorem edit (h : Keeps bucket older m) (e : Edit) : Keeps bucket (e :: older) (m.edit e) := by
  cases e with
  | put id content expiry =>
    rw [edit_put, h.written]
    refine ⟨h.bucket, (List.countP_cons_of_pos rfl).symm, ?_⟩
    intro other
    rw [lastOf]
    by_cases hid : id = other
    · rw [if_pos hid, hid]
      exact Assoc.get?_put_self other _ m.entries
    · rw [if_neg hid, ← h.entry]
      exact Assoc.get?_put_of_ne hid _ m.entries
  | remove id =>
    obtain ⟨entries, hedit, hentries⟩ := m.edit_remove id
    rw [hedit]
    refine ⟨h.bucket, h.written, ?_⟩
    intro other
    rw [hentries, lastOf, h.entry]
    split <;> rfl

theorem foldl (h : Keeps bucket older m) (edits : List Edit) :
    Keeps bucket (edits.reverse ++ older) (edits.foldl MemoryStore.edit m) := by
  induction edits generalizing older m with
  | nil => exact h
  | cons e rest ih =>
    rw [List.reverse_cons, List.append_assoc]
    exact ih (h.edit e)

end Keeps

theorem keeps_edits (bucket : String) (edits : List Edit) :
    Keeps bucket edits.reverse (edits.foldl edit { bucket }) := by
  have hstart : Keeps bucket [] { bucket } := ⟨rfl, rfl, fun _ => rfl⟩
  have hall := hstart.foldl edits
  rwa [List.append_nil] at hall

/-! ## Reading -/

variable {m : MemoryStore} {id : String} {last : Option Put}

theorem endsAsStore_getJson_iff (h : Assoc.get? id m.entries = last.map Put.entry) :
    EndsAsStore (m.getJson id) ↔ ∀ p ∈ last, p.IsText → p.InRange := by
  cases last with
  | none =>
    unfold getJson
    rw [entry_of_none h]
    exact endsAsStore_error_iff.trans (iff_of_true rfl nofun)
  | some p =>
    have hentry : m.entry id = pure p.entry := entry_of_some h
    obtain ⟨content, count, expiry⟩ := p
    unfold getJson
    rw [hentry, pure_bind]
    cases content with
    | json text =>
      have hdecoded : Text.decodeUtf8? (Put.entry ⟨.json text, count, expiry⟩).content = some text :=
        Text.decodeUtf8?_encodeUtf8 text
      rw [hdecoded]
      rw [Put.expiry_entry, Put.cas_entry]
      refine (Document.endsAsStore_make_iff text).trans ?_
      simp [Put.IsText, Put.InRange]
    | binary bytes =>
      refine (endsAsStore_error_iff (f := storedAsBinary id)).trans (iff_of_true rfl ?_)
      intro p hp htext
      cases hp
      obtain ⟨text, hcontent⟩ := htext
      cases hcontent

theorem endsAsStore_getBinary_iff (h : Assoc.get? id m.entries = last.map Put.entry) :
    EndsAsStore (m.getBinary id) ↔ ∀ p ∈ last, p.InRange := by
  unfold getBinary
  cases last with
  | none =>
    rw [entry_of_none h]
    exact endsAsStore_error_iff.trans (iff_of_true rfl nofun)
  | some p =>
    rw [entry_of_some h, pure_bind]
    refine (Document.endsAsStore_make_iff p.entry.content).trans ?_
    simp [Put.InRange]

/-- After any edits, a read ends as stores promise just where the last write of the document, if it was not removed
since, has its numbers in range. A text that is asked for from bytes is an error of the store in any case. Fetching
gets a result from just those reads. -/
theorem edits_settle_reads {σ : Type} (bucket : String) (edits : List Edit) (id : String) (fetcher : Fetcher σ)
    (s : σ) :
    let m := edits.foldl edit { bucket }
    let last := lastPut edits id
    let reading : Fetcher σ := { fetcher with store := m.reader }
    (EndsAsStore (m.getJson id) ↔ ∀ p ∈ last, p.IsText → p.InRange) ∧
    (EndsAsStore (m.getBinary id) ↔ ∀ p ∈ last, p.InRange) ∧
    ((∃ result, FetchResult.ofRead ((reading.read id).exec s).1 = .ok result) ↔
      ∀ p ∈ last, (fetcher.config.documentType = .json → p.IsText) → p.InRange) := by
  intro m last reading
  have hentry : Assoc.get? id m.entries = last.map Put.entry := (keeps_edits bucket edits).entry id
  have hjson := endsAsStore_getJson_iff hentry
  have hbinary := endsAsStore_getBinary_iff hentry
  refine ⟨hjson, hbinary, ?_⟩
  rw [FetchResult.exists_ofRead_iff]
  cases htype : fetcher.config.documentType with
  | json =>
    have hread : ((reading.store.getJson id).exec s).1 = m.getJson id := rfl
    rw [Fetcher.exec_read_json (f := reading) htype, endsAsStore_map_iff, hread]
    simpa using hjson
  | binary =>
    have hread : ((reading.store.getBinary id).exec s).1 = m.getBinary id := rfl
    rw [Fetcher.exec_read_binary (f := reading) htype, hread]
    simpa using hbinary

/-- An expiry that is too large by one ends the reads of its document in a failure that no store promises. -/
theorem expiry_too_large :
    let m := [Edit.put "k" (.json "[]") 4294967296].foldl edit {}
    let failure : Failure := .refused (.expiryOutOfRange "4294967296")
    m.getJson "k" = .error failure ∧ m.getBinary "k" = .error failure ∧ failure.isKindOf .store = false ∧
    ¬ EndsAsStore (m.getJson "k") ∧ ¬ EndsAsStore (m.getBinary "k") ∧
    FetchResult.ofRead (m.getBinary "k") = .error failure := by
  intro m failure
  have hjson : m.getJson "k" = .error failure := rfl
  have hbinary : m.getBinary "k" = .error failure := rfl
  rw [hjson, hbinary, endsAsStore_error_iff, endsAsStore_error_iff]
  exact ⟨rfl, rfl, rfl, Bool.false_ne_true, Bool.false_ne_true, rfl⟩

end MemoryStore

end DocFetch
