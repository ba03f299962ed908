import DocFetch.Proofs.Store.Written
import DocFetch.Store.Memory
import Mathlib.Data.Set.Card

/-! # Documents in memory

After any history of writes and removals the store holds, of each document, the last write that was not
undone. The counts that it gave only rise, across all documents and removals.
-/

namespace DocFetch.MemoryStore

inductive Change
  | write (id : String) (content : Content) (expiry : Nat)
  | remove (id : String)

namespace Change

def id : Change → String
  | write id _ _ => id
  | remove id => id

def isWrite : Change → Bool
  | write .. => true
  | remove _ => false

end Change

/-- Does a change; a write gives its count. -/
def perform (m : MemoryStore) : Change → Except Failure (Option Nat) × MemoryStore
  | .write id (.json text) expiry => let (cas, m) := m.upsertJson id text (.int expiry); (.ok (some cas), m)
  | .write id (.binary bytes) expiry => let (cas, m) := m.upsertBinary id bytes (.int expiry); (.ok (some cas), m)
  | .remove id =>
    match m.remove id with
    | .ok m => (.ok none, m)
    | .error e => (.error e, m)

/-- Changes with what they gave. -/
abbrev History := List (Change × Except Failure (Option Nat))

/-- Does the changes in order. -/
def performAll (m : MemoryStore) : List Change → History × MemoryStore
  | [] => ([], m)
  | c :: rest =>
    let (answer, m) := m.perform c
    let (history, m) := m.performAll rest
    ((c, answer) :: history, m)

namespace History

/-- What a change leaves of its document. -/
def left : Change × Except Failure (Option Nat) → Option Written
  | (.write _ content expiry, .ok (some cas)) => some ⟨content, cas, expiry⟩
  | _ => none

/-- The last write of a document, unless it was removed after it. -/
def lastWrite (history : History) (id : String) : Option Written :=
  (history.reverse.find? fun e => e.1.id = id).bind left

/-- The counts that the writes gave. -/
def counts (history : History) : List Nat := history.filterMap fun e => e.2.toOption.join

theorem lastWrite_concat (history : History) (e : Change × Except Failure (Option Nat)) (id : String) :
    lastWrite (history ++ [e]) id = if e.1.id = id then left e else lastWrite history id := by
  unfold lastWrite
  rw [List.reverse_concat, List.find?_cons]
  by_cases hid : e.1.id = id
  · simp only [hid, decide_true, if_true, Option.bind_some]
  · simp only [hid, decide_false, if_false]

theorem lastWrite_write (history : History) (id : String) (w : Written) (other : String) :
    lastWrite (history ++ [(.write id w.content w.expiry, .ok (some w.cas))]) other =
      if id = other then some w else lastWrite history other := lastWrite_concat ..

theorem lastWrite_remove (history : History) (id : String) (answer : Except Failure (Option Nat))
    (other : String) :
    lastWrite (history ++ [(.remove id, answer)]) other = if id = other then none else lastWrite history other :=
  lastWrite_concat ..

theorem mem_of_lastWrite {history : History} {id : String} {w : Written} (h : lastWrite history id = some w) :
    (.write id w.content w.expiry, .ok (some w.cas)) ∈ history := by
  obtain ⟨e, hfound, hleft⟩ := Option.bind_eq_some_iff.mp h
  have hmem : e ∈ history := List.mem_reverse.mp (List.mem_of_find?_eq_some hfound)
  have hid : e.1.id = id := by simpa using List.find?_some hfound
  unfold left at hleft
  split at hleft
  · cases hleft
    cases hid
    exact hmem
  · cases hleft

theorem counts_concat (history : History) (c : Change) (answer : Except Failure (Option Nat)) :
    counts (history ++ [(c, answer)]) = counts history ++ answer.toOption.join.toList := by
  unfold counts
  rw [List.filterMap_append, List.filterMap_cons, List.filterMap_nil]
  cases answer.toOption.join <;> rfl

end History

/-- How a write is kept. -/
def entryOf (w : Written) : MemoryEntry :=
  ⟨match w.content with | .json _ => true | .binary _ => false, w.content.bytes, w.cas, .int w.expiry⟩

theorem perform_write (m : MemoryStore) (id : String) (content : Content) (expiry : Nat) :
    m.perform (.write id content expiry) =
      (.ok (some (m.written + 1)), { m with
        entries := Assoc.put id (entryOf ⟨content, m.written + 1, expiry⟩) m.entries
        written := m.written + 1 }) := by
  cases content <;> rfl

theorem perform_remove_of_some {m : MemoryStore} {id : String} {e : MemoryEntry}
    (h : Assoc.get? id m.entries = some e) :
    m.perform (.remove id) = (.ok none, { m with entries := Assoc.erase id m.entries }) := by
  have hremove : m.remove id = .ok { m with entries := Assoc.erase id m.entries } :=
    if_pos (Assoc.contains_iff.mpr (by rw [h]; rfl))
  simp only [perform, hremove]

theorem perform_remove_of_none {m : MemoryStore} {id : String} (h : Assoc.get? id m.entries = none) :
    m.perform (.remove id) = (.error (missingFrom m.bucket id), m) := by
  have hremove : m.remove id = .error (missingFrom m.bucket id) :=
    if_neg (by rw [Assoc.contains_iff, h]; exact Bool.false_ne_true)
  simp only [perform, hremove]

/-- What a history of changes leaves in a store: the last write of every document, and the counts from one on. -/
structure Holds (bucket : String) (history : History) (m : MemoryStore) : Prop where
  bucket : m.bucket = bucket
  nodup : (m.entries.map Prod.fst).Nodup
  entry : ∀ id, Assoc.get? id m.entries = (history.lastWrite id).map entryOf
  written : m.written = history.countP fun e => e.1.isWrite
  counts : history.counts = List.range' 1 m.written

namespace Holds

variable {bucket : String} {history : History} {m : MemoryStore}

theorem start (bucket : String) : Holds bucket [] { bucket } :=
  ⟨rfl, List.nodup_nil, fun _ => rfl, rfl, rfl⟩

theorem write (h : Holds bucket history m) (id : String) (content : Content) (expiry : Nat) :
    Holds bucket (history ++ [(.write id content expiry, .ok (some (m.written + 1)))])
      { m with
        entries := Assoc.put id (entryOf ⟨content, m.written + 1, expiry⟩) m.entries
        written := m.written + 1 } where
  bucket := h.bucket
  nodup := Assoc.nodup_keys_put h.nodup id _
  entry other := by
    rw [History.lastWrite_write history id ⟨content, m.written + 1, expiry⟩]
    by_cases hid : id = other
    · rw [if_pos hid, hid]
      exact Assoc.get?_put_self other _ m.entries
    · rw [if_neg hid, ← h.entry]
      exact Assoc.get?_put_of_ne hid _ m.entries
  written := by
    rw [List.countP_append, ← h.written]
    rfl
  counts := by
    rw [History.counts_concat, h.counts, List.range'_concat, Nat.one_mul, Nat.add_comm 1]
    rfl

theorem remove (h : Holds bucket history m) (id : String) :
    Holds bucket (history ++ [(.remove id, (m.perform (.remove id)).1)]) (m.perform (.remove id)).2 := by
  have hwritten (answer : Except Failure (Option Nat)) :
      m.written = (history ++ [(Change.remove id, answer)]).countP fun e => e.1.isWrite := by
    rw [List.countP_append, ← h.written]
    rfl
  cases hentry : Assoc.get? id m.entries with
  | none =>
    rw [perform_remove_of_none hentry]
    refine ⟨h.bucket, h.nodup, fun other => ?_, hwritten _, ?_⟩
    · rw [History.lastWrite_remove]
      by_cases hid : id = other
      · rw [if_pos hid, ← hid]
        exact hentry
      · rw [if_neg hid, h.entry]
    · rw [History.counts_concat, h.counts]
      exact List.append_nil _
  | some e =>
    rw [perform_remove_of_some hentry]
    refine ⟨h.bucket, Assoc.nodup_keys_erase h.nodup id, fun other => ?_, hwritten _, ?_⟩
    · rw [History.lastWrite_remove]
      by_cases hid : id = other
      · rw [if_pos hid, hid]
        exact Assoc.get?_erase_self other m.entries
      · rw [if_neg hid, ← h.entry]
        exact Assoc.get?_erase_of_ne hid m.entries
    · rw [History.counts_concat, h.counts]
      exact List.append_nil _

theorem perform (h : Holds bucket history m) (c : Change) :
    Holds bucket (history ++ [(c, (m.perform c).1)]) (m.perform c).2 := by
  cases c with
  | write id content expiry =>
    rw [perform_write]
    exact h.write id content expiry
  | remove id => exact h.remove id

theorem performAll (h : Holds bucket history m) (changes : List Change) :
    Holds bucket (history ++ (m.performAll changes).1) (m.performAll changes).2 := by
  induction changes generalizing history m with
  | nil =>
    rw [MemoryStore.performAll, List.append_nil]
    exact h
  | cons c rest ih =>
    have hrest := ih (h.perform c)
    rwa [List.append_assoc] at hrest

end Holds

theorem changes_performAll (m : MemoryStore) (changes : List Change) :
    (m.performAll changes).1.map Prod.fst = changes := by
  induction changes generalizing m with
  | nil => rfl
  | cons c rest ih => exact congrArg (c :: ·) (ih _)

/-! ## Reading -/

variable {m : MemoryStore} {id : String}

theorem getJson_of_get? {last : Option Written} (h : Assoc.get? id m.entries = last.map entryOf)
    (hrange : ∀ w ∈ last, w.InRange) : m.getJson id = Written.readJson m.bucket id last := by
  cases last with
  | none =>
    unfold getJson
    rw [entry_of_none h]
    rfl
  | some w =>
    have hentry : m.entry id = pure (entryOf w) := entry_of_some h
    obtain ⟨content, cas, expiry⟩ := w
    unfold getJson
    rw [hentry, pure_bind]
    cases content with
    | json text =>
      have hbytes : Text.decodeUtf8? (entryOf ⟨.json text, cas, expiry⟩).content = some text :=
        Text.decodeUtf8?_encodeUtf8 text
      rw [hbytes]
      exact Written.make_eq (hrange _ rfl) text
    | binary bytes => rfl

theorem getBinary_of_get? {last : Option Written} (h : Assoc.get? id m.entries = last.map entryOf)
    (hrange : ∀ w ∈ last, w.InRange) : m.getBinary id = Written.readBinary m.bucket id last := by
  cases last with
  | none =>
    unfold getBinary
    rw [entry_of_none h]
    rfl
  | some w =>
    unfold getBinary
    rw [entry_of_some h, pure_bind]
    exact Written.make_eq (hrange w rfl) w.content.bytes

namespace Holds

variable {bucket : String} {history : History}

theorem isSome_lastWrite_iff (h : Holds bucket history m) (id : String) :
    (history.lastWrite id).isSome = true ↔ id ∈ m.entries.map Prod.fst := by
  rw [← Assoc.isSome_get?_iff, h.entry, Option.isSome_map]

/-- The store is as large as there are documents in it. -/
theorem encard (h : Holds bucket history m) :
    {id | (history.lastWrite id).isSome = true}.encard = m.size := by
  have hkeys : {id | (history.lastWrite id).isSome = true} = ((m.entries.map Prod.fst).toFinset : Set String) := by
    ext id
    rw [Set.mem_ofPred_eq, h.isSome_lastWrite_iff, List.coe_toFinset, Set.mem_ofPred_eq]
  rw [hkeys, Set.encard_coe_eq_coe_finsetCard, List.toFinset_card_of_nodup h.nodup, List.length_map, size]

theorem cas_le (h : Holds bucket history m) {w : Written} (hw : history.lastWrite id = some w) :
    w.cas ≤ m.written := by
  have hcount : w.cas ∈ history.counts :=
    List.mem_filterMap.mpr ⟨_, History.mem_of_lastWrite hw, rfl⟩
  rw [h.counts, List.mem_range'_1] at hcount
  omega

theorem pairwise_counts (h : Holds bucket history m) : history.counts.Pairwise (· < ·) := by
  rw [h.counts]
  exact List.pairwise_lt_range'

theorem length_counts (h : Holds bucket history m) :
    history.counts.length = (history.map Prod.fst).countP Change.isWrite := by
  rw [h.counts, List.length_range', h.written, List.countP_map]
  rfl

end Holds

/-- After any changes the store holds the last writes that were not removed since, and reading gives them. Its
size is their number, and the counts of the writes rise. -/
theorem refines_last_writes (bucket : String) (changes : List Change)
    (hexpiry : ∀ id content expiry, .write id content expiry ∈ changes → expiry < 2 ^ 32)
    (hwrites : changes.countP Change.isWrite < 2 ^ 64) :
    let run := performAll { bucket } changes
    run.1.map Prod.fst = changes ∧
    (∀ id, run.2.getJson id = Written.readJson bucket id (run.1.lastWrite id) ∧
      run.2.getBinary id = Written.readBinary bucket id (run.1.lastWrite id)) ∧
    {id | (run.1.lastWrite id).isSome = true}.encard = run.2.size ∧
    (∀ id, run.1.lastWrite id = none →
      run.2.perform (.remove id) = (.error (missingFrom bucket id), run.2)) ∧
    (∀ id, run.1.lastWrite id ≠ none → (run.2.perform (.remove id)).1 = .ok none) ∧
    run.1.counts.length = changes.countP Change.isWrite ∧ run.1.counts.Pairwise (· < ·) := by
  intro run
  have hchanges : run.1.map Prod.fst = changes := changes_performAll { bucket } changes
  have h : Holds bucket run.1 run.2 := (Holds.start bucket).performAll changes
  have hlength := h.length_counts
  rw [hchanges] at hlength
  have hrange (id : String) : ∀ w ∈ run.1.lastWrite id, w.InRange := by
    intro w hw
    have hmem := List.mem_map_of_mem (f := Prod.fst) (History.mem_of_lastWrite hw)
    rw [hchanges] at hmem
    have hwritten : run.2.written < 2 ^ 64 := by
      rwa [← hlength, h.counts, List.length_range'] at hwrites
    exact ⟨(h.cas_le hw).trans_lt hwritten, hexpiry _ _ _ hmem⟩
  refine ⟨hchanges, fun id => ⟨?_, ?_⟩, h.encard, fun id hid => ?_, fun id hid => ?_, hlength, h.pairwise_counts⟩
  · rw [getJson_of_get? (h.entry id) (hrange id), h.bucket]
  · rw [getBinary_of_get? (h.entry id) (hrange id), h.bucket]
  · have hnone := h.entry id
    rw [hid] at hnone
    rw [perform_remove_of_none hnone, h.bucket]
  · obtain ⟨w, hw⟩ := Option.ne_none_iff_exists'.mp hid
    have hsome := h.entry id
    rw [hw] at hsome
    rw [perform_remove_of_some hsome]

/-- A document that is written again as bytes after it was removed, and a removal of one that is not there. -/
theorem refines_last_writes_again :
    let changes : List Change := [.write "a" (.json "é") 7, .write "b" (.json "[]") 0, .remove "a", .remove "c",
      .write "a" (.binary ⟨#[255]⟩) 4294967295]
    let run := performAll { bucket := "users" } changes
    (∀ id content expiry, .write id content expiry ∈ changes → expiry < 2 ^ 32) ∧
    changes.countP Change.isWrite < 2 ^ 64 ∧
    run.2.getBinary "a" = .ok { content := ⟨#[255]⟩, cas := .int 3, expiry := .int 4294967295 } ∧
    run.2.getJson "a" = .error (storedAsBinary "a") ∧
    run.2.getJson "b" = .ok { content := "[]", cas := .int 2, expiry := .int 0 } ∧
    run.2.getJson "c" = .error (missingFrom "users" "c") ∧
    run.2.perform (.remove "c") = (.error (missingFrom "users" "c"), run.2) ∧
    run.1.counts.length = 3 ∧ run.1.counts.Pairwise (· < ·) := by
  intro changes run
  have hexpiry : ∀ id content expiry, .write id content expiry ∈ changes → expiry < 2 ^ 32 := by
    intro id content expiry h
    simp only [changes, List.mem_cons, Change.write.injEq, reduceCtorEq, List.not_mem_nil, or_false, false_or] at h
    omega
  have hwrites : changes.countP Change.isWrite < 2 ^ 64 := by decide
  obtain ⟨-, hreads, -, habsent, -, hlength, hcounts⟩ := refines_last_writes "users" changes hexpiry hwrites
  have ha : run.1.lastWrite "a" = some ⟨.binary ⟨#[255]⟩, 3, 4294967295⟩ := rfl
  have hb : run.1.lastWrite "b" = some ⟨.json "[]", 2, 0⟩ := rfl
  have hc : run.1.lastWrite "c" = none := rfl
  refine ⟨hexpiry, hwrites, ?_, ?_, ?_, ?_, habsent "c" hc, hlength, hcounts⟩
  · exact (hreads "a").2.trans (by rw [ha]; rfl)
  · exact (hreads "a").1.trans (by rw [ha]; rfl)
  · exact (hreads "b").1.trans (by rw [hb]; rfl)
  · exact (hreads "c").1.trans (by rw [hc]; rfl)

end DocFetch.MemoryStore
