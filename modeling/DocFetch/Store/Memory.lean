import DocFetch.Store.Basic
import DocFetch.Text.Utf8

/-! # Documents in memory

Every write takes the next number of one count as the change counter of its document.
-/

namespace DocFetch

structure MemoryEntry where
  isJson : Bool
  content : ByteArray
  cas : Nat
  expiry : Value

structure MemoryStore where
  bucket : String := "default"
  entries : List (String × MemoryEntry) := []
  written : Nat := 0

namespace MemoryStore

/-- Puts content in place of what is there and gives its change counter. -/
def upsert (m : MemoryStore) (id : String) (isJson : Bool) (content : ByteArray) (expiry : Value) :
    Nat × MemoryStore :=
  let cas := m.written + 1
  (cas, { m with entries := Assoc.put id ⟨isJson, content, cas, expiry⟩ m.entries, written := cas })

def upsertJson (m : MemoryStore) (id content : String) (expiry : Value := .int 0) : Nat × MemoryStore :=
  m.upsert id true (Text.encodeUtf8 content) expiry

def upsertBinary (m : MemoryStore) (id : String) (content : ByteArray) (expiry : Value := .int 0) :
    Nat × MemoryStore :=
  m.upsert id false content expiry

def remove (m : MemoryStore) (id : String) : Except Failure MemoryStore :=
  if Assoc.contains id m.entries then .ok { m with entries := Assoc.erase id m.entries }
  else .error (missingFrom m.bucket id)

def size (m : MemoryStore) : Nat := m.entries.length

def entry (m : MemoryStore) (id : String) : Except Failure MemoryEntry :=
  match Assoc.get? id m.entries with
  | some e => .ok e
  | none => .error (missingFrom m.bucket id)

theorem entry_of_some {m : MemoryStore} {id : String} {e : MemoryEntry} (h : Assoc.get? id m.entries = some e) :
    m.entry id = pure e := by
  unfold entry
  rw [h]
  rfl

theorem entry_of_none {m : MemoryStore} {id : String} (h : Assoc.get? id m.entries = none) :
    m.entry id = .error (missingFrom m.bucket id) := by
  unfold entry
  rw [h]

def getJson (m : MemoryStore) (id : String) : Except Failure (Document String) := do
  let e ← m.entry id
  unless e.isJson do
    .error (.fetch (.say .transcoding ("Document " ++ Text.quoted id ++ " is stored as binary, not JSON")))
  match Text.decodeUtf8? e.content with
  | some s => Document.make s (.int e.cas) e.expiry
  | none => .error (.fault .undecodable)

def getBinary (m : MemoryStore) (id : String) : Except Failure (Document ByteArray) := do
  let e ← m.entry id
  Document.make e.content (.int e.cas) e.expiry

/-- The store for reading. -/
def reader {σ : Type} (m : MemoryStore) : DocumentStore σ where
  scheme := "memory"
  bucket := m.bucket
  getJson id := .ofExcept (m.getJson id)
  getBinary id := .ofExcept (m.getBinary id)

end MemoryStore

end DocFetch
