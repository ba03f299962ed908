import DocFetch.Store.Basic
import DocFetch.Text.Utf8

/-! # Documents of a document database

One collection per bucket. A document is a mapping with its content, a text or bytes, its change counter,
and perhaps an expiry.
-/

namespace DocFetch

/-- A client of a document database: the collections that were asked for in order, the documents it finds,
the error that a look-up ends in, and what was inserted. -/
structure MongoClient where
  uri : String
  accessed : List (String × String) := []
  documents : List (String × List (Value × Value)) := []
  failure : Option String := none
  inserted : List ((String × String) × List Value) := []
  closed : Nat := 0

namespace MongoClient

def access (c : MongoClient) (database collection : String) : MongoClient :=
  { c with accessed := c.accessed ++ [(database, collection)] }

def insert (c : MongoClient) (database collection : String) (document : Value) : MongoClient :=
  let before := (Assoc.get? (database, collection) c.inserted).getD []
  { c with inserted := Assoc.put (database, collection) (before ++ [document]) c.inserted }

def close (c : MongoClient) : MongoClient := { c with closed := c.closed + 1 }

/-- The document with an id, if there is one, or the error of the look-up. -/
def find (c : MongoClient) (id : String) : Except String (Option (List (Value × Value))) :=
  match c.failure with
  | some e => .error e
  | none => .ok (Assoc.get? id c.documents)

end MongoClient

namespace Mongo

/-- The fields found for an id in a bucket. -/
def found (bucket id : String) (answer : Except String (Option (List (Value × Value)))) :
    Except Failure (List (Value × Value)) :=
  match answer with
  | .error e =>
    .error (.fetch (.say .connection ("Reading " ++ Text.quoted id ++ " from MongoDB failed: " ++ e)))
  | .ok none => .error (missingFrom bucket id)
  | .ok (some fields) => .ok fields

/-- A document with the counter and expiry of its fields; no expiry is zero. -/
def documentOf {α : Type} (id : String) (content : α) (fields : List (Value × Value)) :
    Except Failure (Document α) :=
  Document.ofStored id content ((Value.field? "cas" fields).getD .null)
    ((Value.field? "expiry" fields).getD (.int 0))

def readJson (bucket id : String) (answer : Except String (Option (List (Value × Value)))) :
    Except Failure (Document String) := do
  let fields ← found bucket id answer
  match Value.field? "content" fields with
  | some (.text s) => documentOf id s fields
  | _ => .error (.fetch (.say .transcoding ("Document " ++ Text.quoted id ++ " is not stored as JSON text")))

def readBinary (bucket id : String) (answer : Except String (Option (List (Value × Value)))) :
    Except Failure (Document ByteArray) := do
  let fields ← found bucket id answer
  match Value.field? "content" fields with
  | some (.text s) => documentOf id (Text.encodeUtf8 s) fields
  | some (.bytes b) => documentOf id b fields
  | _ => .error (.fetch (.say .transcoding ("Document " ++ Text.quoted id ++ " has no binary content")))

/-- The store that looks documents up with `find`; a client of its own is closed with it. -/
def reader {σ : Type} (bucket : String)
    (find : String → StateM σ (Except String (Option (List (Value × Value)))))
    (close : Action σ Unit := pure ()) : DocumentStore σ where
  scheme := "mongodb"
  bucket := bucket
  getJson id := do Action.ofExcept (readJson bucket id (← find id))
  getBinary id := do Action.ofExcept (readBinary bucket id (← find id))
  close := close

end Mongo

end DocFetch
