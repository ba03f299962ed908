import DocFetch.Export.Router
import DocFetch.Fetch.Basic

/-! # Invocations

An invocation fetches for one record, or without one, and hands on what comes of it. It is aborted by a
fault of the configuration. Any other failure ends the batch: what is left of it then is not awaited.
-/

namespace DocFetch

/-- How an invocation ended. -/
inductive Status
  | found
  | notFound
  | storeError
  | aborted
deriving DecidableEq, Repr

namespace Status

def name : Status → String
  | found => "found"
  | notFound => "not_found"
  | storeError => "store_error"
  | aborted => "aborted"

def all : List Status := [found, notFound, storeError, aborted]

def ofResult : FetchResult → Status
  | .found .. => found
  | .notFound _ => notFound
  | .storeError _ => storeError

end Status

structure Invocation where
  status : Status
  documentId : Option String := none
  reason : Option String := none
deriving DecidableEq, Repr

/-- How many invocations ended in which way, and how many records went to which channel. -/
structure Summary where
  statuses : Status → Nat := fun _ => 0
  channels : Channel → Nat := fun _ => 0

namespace Summary

def ofInvocations (invocations : List Invocation) (channels : Channel → Nat) : Summary where
  statuses s := invocations.countP fun i => i.status = s
  channels := channels

/-- The counts by name, those of invocations first. -/
def fields (s : Summary) : List (String × Nat) :=
  (Status.all.map fun t => (t.name, s.statuses t)) ++ Channel.all.map fun c => (c.name, s.channels c)

end Summary

namespace Fetcher

variable {σ : Type}

def abortedEntry (record : Option Record) (f : Failure) : Log.Entry :=
  ⟨.error, "invocation_aborted", [("record", .text (Record.labelOf record)), ("error", .text f.message)]⟩

/-- One invocation. -/
def invoke (f : Fetcher σ) (record : Option Record) : Action (Router σ × σ) Invocation := do
  match ← (Router.beside (f.fetch record)).attempt with
  | .ok o =>
    Router.route o.transfers
    return { status := .ofResult o.result, documentId := some o.documentId }
  | .error e =>
    if e.isKindOf .configuration then
      Router.beside (f.log (abortedEntry record e))
      return { status := .aborted, reason := some e.message }
    else Action.fail e

/-- Invocations for the records of a batch in order, up to the first failure. -/
def invokeAll (f : Fetcher σ) (batch : List (Option Record)) : Action (Router σ × σ) (List Invocation) :=
  batch.mapM f.invoke

end Fetcher

end DocFetch
