import DocFetch.Action
import DocFetch.Document.Basic

/-! # Document stores

A store reads documents by id as text or as bytes. It fails with a missing document, another error of a
store, or anything else that goes wrong in it.
-/

namespace DocFetch

structure DocumentStore (σ : Type) where
  scheme : String
  bucket : String
  getJson : String → Action σ (Document String)
  getBinary : String → Action σ (Document ByteArray)
  close : Action σ Unit := pure ()

namespace DocumentStore

variable {σ τ : Type}

/-- Where documents come from, as records and logs name it. -/
def transitUri (s : DocumentStore σ) (cluster : String) : String :=
  s.scheme ++ "://" ++ cluster ++ "/" ++ s.bucket

/-- The store seen from a larger state. -/
def zoom (get : σ → τ) (set : σ → τ → σ) (s : DocumentStore τ) : DocumentStore σ where
  scheme := s.scheme
  bucket := s.bucket
  getJson id := (s.getJson id).zoom get set
  getBinary id := (s.getBinary id).zoom get set
  close := s.close.zoom get set

end DocumentStore

/-- The error of a document that a bucket does not hold. -/
def missingFrom (bucket id : String) : Failure := .fetch (.missing (.text id) (.text bucket))

end DocFetch
