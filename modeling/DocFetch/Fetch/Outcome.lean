import DocFetch.Channel
import DocFetch.Document.Basic

/-! # Outcomes of a fetch -/

namespace DocFetch

/-- What a store reported for an id. -/
inductive FetchResult
  | found (content : ByteArray) (cas expiry : Number)
  | notFound (error : FetchError)
  | storeError (cause : FetchError)

structure FetchOutcome where
  documentId : String
  result : FetchResult
  transfers : List Transfer := []

/-- The names of the attributes that a fetch sets. -/
inductive FetchAttribute
  | cluster
  | bucket
  | documentId
  | cas
  | expiry
  | exception
  | errorMessage
deriving DecidableEq, Repr

def FetchAttribute.name : FetchAttribute → String
  | cluster => "cluster"
  | bucket => "bucket"
  | documentId => "doc.id"
  | cas => "doc.cas"
  | expiry => "doc.expiry"
  | exception => "exception"
  | errorMessage => "error.message"

/-- Sorts the end of a read: a missing document and other errors of the store are results, and any other
failure stays one. -/
def FetchResult.ofRead (r : Except Failure (Document ByteArray)) : Except Failure FetchResult :=
  match r with
  | .ok d => .ok (.found d.content d.cas d.expiry)
  | .error (.fetch e) =>
    if e.family.isKindOf .notFound then .ok (.notFound e)
    else if e.family.isKindOf .store then .ok (.storeError e)
    else .error (.fetch e)
  | .error f => .error f

namespace FetchResult

theorem ofRead_notFound {e : FetchError} (h : e.family.isKindOf .notFound = true) :
    ofRead (.error (.fetch e)) = .ok (.notFound e) := if_pos h

theorem ofRead_store {e : FetchError} (h : e.family.isKindOf .store = true)
    (h' : e.family.isKindOf .notFound = false) : ofRead (.error (.fetch e)) = .ok (.storeError e) := by
  simp [ofRead, h, h']

theorem ofRead_outside {f : Failure} (h : f.isKindOf .store = false) :
    ofRead (.error f) = .error f := by
  cases f with
  | fetch e =>
    have h' : e.family.isKindOf .notFound = false := by
      rw [← Bool.not_eq_true]
      intro hnot
      have hstore : e.family.isKindOf .store = true := ErrorFamily.isKindOf_trans hnot (by decide)
      exact absurd (hstore.symm.trans h) (by decide)
    have hstore : e.family.isKindOf .store = false := h
    simp [ofRead, hstore, h']
  | _ => rfl

end FetchResult

end DocFetch
