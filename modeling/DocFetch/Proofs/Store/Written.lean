import DocFetch.Proofs.Store.Stored
import DocFetch.Text.Utf8

/-! # Documents as they were written

What reading a document gives is settled by the last write of it: its content, the change counter that it
gave and its expiry.
-/

namespace DocFetch

/-- What is written as a document. -/
inductive Content
  | json (text : String)
  | binary (bytes : ByteArray)

def Content.bytes : Content → ByteArray
  | json text => Text.encodeUtf8 text
  | binary bytes => bytes

structure Written where
  content : Content
  cas : Nat
  expiry : Nat

/-- Whether a store can give the numbers of a write back. -/
def Written.InRange (w : Written) : Prop := w.cas < 2 ^ 64 ∧ w.expiry < 2 ^ 32

/-- The failure of reading bytes as text. -/
def storedAsBinary (id : String) : Failure :=
  .fetch (.say .transcoding ("Document " ++ Text.quoted id ++ " is stored as binary, not JSON"))

namespace Written

def document {α : Type} (w : Written) (content : α) : Document α :=
  { content, cas := .int w.cas, expiry := .int w.expiry }

/-- What reading text gives after the last write, if there is one. -/
def readJson (bucket id : String) : Option Written → Except Failure (Document String)
  | none => .error (missingFrom bucket id)
  | some w =>
    match w.content with
    | .json text => .ok (w.document text)
    | .binary _ => .error (storedAsBinary id)

/-- What reading bytes gives after the last write, if there is one. -/
def readBinary (bucket id : String) : Option Written → Except Failure (Document ByteArray)
  | none => .error (missingFrom bucket id)
  | some w => .ok (w.document w.content.bytes)

variable {α : Type} {w : Written}

theorem InRange.document (h : w.InRange) : Document.InRange w.cas w.expiry := by
  have hcas := h.1
  have hexpiry := h.2
  unfold Document.InRange
  omega

theorem make_eq (h : w.InRange) (content : α) :
    Document.make content (.int w.cas) (.int w.expiry) = .ok (w.document content) :=
  Document.make_int h.document content

theorem ofStored_eq (h : w.InRange) (id : String) (content : α) :
    Document.ofStored id content (.int w.cas) (.int w.expiry) = .ok (w.document content) :=
  Document.ofStored_int h.document id content

end Written

end DocFetch
