import DocFetch.Store.Basic

/-! # Scripted stores

A store for trying fetches out: it serves listed documents or always fails, and keeps the requests made.
-/

namespace DocFetch

structure ScriptedStore where
  bucket : String := "users"
  /-- Content, change counter and perhaps expiry by id. -/
  documents : List (String × List Value) := []
  failure : Option Failure := none
  /-- Where a missing document is reported to be missing from. -/
  location : List Value := [.text "users"]
  calls : List (String × String) := []

namespace ScriptedStore

def answer (s : ScriptedStore) (id : String) : Except Failure (Document Value) :=
  match s.failure with
  | some f => .error f
  | none =>
    match Assoc.get? id s.documents with
    | some (content :: cas :: rest) => Document.make content cas (rest.headD (.int 0))
    | some _ => .error (.fault .badValue)
    | none =>
      match FetchError.ofArgs? .notFound (.text id :: s.location) with
      | some e => .error (.fetch e)
      | none => .error (.fault .wrongType)

/-- Answers a request of a kind and keeps it. -/
def request (kind id : String) : Action ScriptedStore (Document Value) :=
  Action.ofFunction fun s => (s.answer id, { s with calls := s.calls ++ [(kind, id)] })

def reader (bucket : String) : DocumentStore ScriptedStore where
  scheme := "stub"
  bucket := bucket
  getJson id := do
    let d ← request "json" id
    match d.content with
    | .text s => return { content := s, cas := d.cas, expiry := d.expiry }
    | _ => Action.fail (.fault .noSuchMember)
  getBinary id := do
    let d ← request "binary" id
    return { content := ← Action.ofExcept d.content.toBytes, cas := d.cas, expiry := d.expiry }

end ScriptedStore

end DocFetch
