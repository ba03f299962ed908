import DocFetch.Config.Basic
import DocFetch.Expression.Parser
import DocFetch.Fetch.Outcome
import DocFetch.Log.Entry
import DocFetch.Store.Basic

/-! # Fetching a document

One invocation finds the id of a document, reads it once, and decides which record goes to which channel.
An id that cannot be found is a fault of the configuration and ends the invocation before anything is read.
-/

namespace DocFetch

/-- Gives the value of an expression at the attributes of a record. -/
abbrev Resolver := String → Option Attributes → Except Failure String

def Resolver.expressions : Resolver := fun source attributes =>
  (Expression.run source attributes).mapError Failure.fetch

/-- What a fetch needs: settings, a store, new uuids, a place for provenance events and a log. -/
structure Fetcher (σ : Type) where
  config : FetchConfig
  store : DocumentStore σ
  resolver : Resolver := Resolver.expressions
  draw : StateM σ String
  receive : Record → String → Action σ Unit
  log : Log.Entry → StateM σ Unit

def idFault (record : Option Record) : Failure :=
  .fetch (.say .configuration ("Please check 'document_id_expression' setting. " ++
    "Couldn't get document id from " ++ Record.labelOf record))

/-- The id to read: the value of the expression, or without one the payload of the record. Nothing but a
nonempty text will do. -/
def resolveDocumentId (config : FetchConfig) (resolver : Resolver) (record : Option Record) :
    Except Failure String :=
  let id : Except Failure String :=
    if config.idExpression ≠ "" then
      match resolver config.idExpression (record.map Record.attributes) with
      | .ok id => .ok id
      | .error f => .error (if f.isKindOf .configuration then f else idFault record)
    else
      match record.bind Record.text? with
      | some id => .ok id
      | none => .error (idFault record)
  match id with
  | .ok id => if id.isEmpty then .error (idFault record) else .ok id
  | .error f => .error f

/-- The record made of a document that was found. -/
def successRecord (config : FetchConfig) (uuid id : String) (content : ByteArray) (cas expiry : Number) :
    Record where
  uuid := uuid
  payload := content
  attributes := [(FetchAttribute.cluster.name, config.clusterService),
    (FetchAttribute.bucket.name, config.bucketName), (FetchAttribute.documentId.name, id),
    (FetchAttribute.cas.name, cas.text), (FetchAttribute.expiry.name, expiry.text)]

/-- The message for a record that may be tried again. -/
def retryMessage (id uri : String) (record : Option Record) (cause : FetchError) : String :=
  "Getting document " ++ id ++ " from " ++ uri ++ " using " ++ Record.labelOf record ++
    " failed due to " ++ cause.shown

namespace Fetcher

variable {σ : Type}

def transitUri (f : Fetcher σ) : String := f.store.transitUri f.config.clusterService

/-- Reads as the settings say; a text counts by its UTF-8 bytes. -/
def read (f : Fetcher σ) (id : String) : Action σ (Document ByteArray) :=
  match f.config.documentType with
  | .json => do
    let d ← f.store.getJson id
    return { content := Text.encodeUtf8 d.content, cas := d.cas, expiry := d.expiry }
  | .binary => f.store.getBinary id

/-- Sends the records of a result to their channels and reports what happened. -/
def conclude (f : Fetcher σ) (record : Option Record) (id : String) (result : FetchResult) :
    Action σ (List Transfer) :=
  match result with
  | .found content cas expiry => do
    let out := successRecord f.config (← f.draw) id content cas expiry
    f.receive out f.transitUri
    return (record.map (Transfer.mk .original)).toList ++ [⟨.success, out⟩]
  | .notFound e => do
    f.log ⟨.warning, "document_not_found", [("doc_id", .text id), ("location", .text f.transitUri)]⟩
    return (record.map fun r =>
      ⟨.failure, r.withAttributes [(FetchAttribute.exception.name, e.family.qualifiedName)]⟩).toList
  | .storeError e => do
    f.log ⟨.error, "document_fetch_failed", [("doc_id", .text id), ("location", .text f.transitUri),
      ("error", .text e.message), ("error_type", .text e.family.qualifiedName)]⟩
    return (record.map fun r => ⟨.retry, r.withAttributes
      [(FetchAttribute.errorMessage.name, retryMessage id f.transitUri record e)]⟩).toList

/-- One invocation, for a record or without one. -/
def fetch (f : Fetcher σ) (record : Option Record) : Action σ FetchOutcome := do
  let documentId ← Action.ofExcept (resolveDocumentId f.config f.resolver record)
  let result ← Action.ofExcept (FetchResult.ofRead (← (f.read documentId).attempt))
  return { documentId, result, transfers := ← f.conclude record documentId result }

theorem exec_read_json {f : Fetcher σ} (h : f.config.documentType = .json) (id : String) (s : σ) :
    (f.read id).exec s =
      (((f.store.getJson id).exec s).1.map fun d =>
        { content := Text.encodeUtf8 d.content, cas := d.cas, expiry := d.expiry },
        ((f.store.getJson id).exec s).2) := by
  unfold read
  rw [h]
  exact Action.exec_bind_pure _ _ s

theorem exec_read_binary {f : Fetcher σ} (h : f.config.documentType = .binary) (id : String) (s : σ) :
    (f.read id).exec s = (f.store.getBinary id).exec s := by
  unfold read
  rw [h]

theorem exec_conclude_found (f : Fetcher σ) (record : Option Record) (id : String) (content : ByteArray)
    (cas expiry : Number) (s : σ) {out : Record}
    (hout : out = successRecord f.config (f.draw.run s).1 id content cas expiry) :
    (f.conclude record id (.found content cas expiry)).exec s =
      (((f.receive out f.transitUri).exec (f.draw.run s).2).1.map fun _ =>
        (record.map (Transfer.mk .original)).toList ++ [⟨.success, out⟩],
        ((f.receive out f.transitUri).exec (f.draw.run s).2).2) := by
  subst hout
  unfold conclude
  dsimp only
  rw [Action.exec_bind_ok (Action.exec_lift f.draw s)]
  exact Action.exec_bind_pure _ _ _

theorem exec_conclude_notFound (f : Fetcher σ) (record : Option Record) (id : String) (e : FetchError)
    (s : σ) :
    (f.conclude record id (.notFound e)).exec s =
      (.ok (record.map fun r =>
        ⟨.failure, r.withAttributes [(FetchAttribute.exception.name, e.family.qualifiedName)]⟩).toList,
        ((f.log ⟨.warning, "document_not_found",
          [("doc_id", .text id), ("location", .text f.transitUri)]⟩).run s).2) := rfl

theorem exec_conclude_storeError (f : Fetcher σ) (record : Option Record) (id : String) (e : FetchError)
    (s : σ) :
    (f.conclude record id (.storeError e)).exec s =
      (.ok (record.map fun r => ⟨.retry, r.withAttributes
        [(FetchAttribute.errorMessage.name, retryMessage id f.transitUri record e)]⟩).toList,
        ((f.log ⟨.error, "document_fetch_failed",
          [("doc_id", .text id), ("location", .text f.transitUri), ("error", .text e.message),
            ("error_type", .text e.family.qualifiedName)]⟩).run s).2) := rfl

theorem exec_fetch_of_fault {f : Fetcher σ} {record : Option Record} {e : Failure}
    (h : resolveDocumentId f.config f.resolver record = .error e) (s : σ) :
    (f.fetch record).exec s = (.error e, s) := by
  unfold fetch
  rw [h]
  rfl

theorem exec_fetch_of_failure {f : Fetcher σ} {record : Option Record} {id : String} {s t : σ}
    {answer : Except Failure (Document ByteArray)} {e : Failure}
    (hid : resolveDocumentId f.config f.resolver record = .ok id)
    (hread : (f.read id).exec s = (answer, t)) (hresult : FetchResult.ofRead answer = .error e) :
    (f.fetch record).exec s = (.error e, t) := by
  unfold fetch
  rw [hid, Action.exec_bind_ok (Action.exec_ofExcept _ s), Action.exec_bind_ok (Action.exec_attempt _ s),
    hread, hresult]
  rfl

theorem exec_fetch_of_result {f : Fetcher σ} {record : Option Record} {id : String} {s t : σ}
    {answer : Except Failure (Document ByteArray)} {result : FetchResult}
    (hid : resolveDocumentId f.config f.resolver record = .ok id)
    (hread : (f.read id).exec s = (answer, t)) (hresult : FetchResult.ofRead answer = .ok result) :
    (f.fetch record).exec s =
      (((f.conclude record id result).exec t).1.map fun transfers => { documentId := id, result, transfers },
        ((f.conclude record id result).exec t).2) := by
  unfold fetch
  rw [hid, Action.exec_bind_ok (Action.exec_ofExcept _ s), Action.exec_bind_ok (Action.exec_attempt _ s),
    hread, hresult, Action.exec_bind_ok (Action.exec_ofExcept _ t)]
  exact Action.exec_bind_pure _ _ t

end Fetcher

end DocFetch
