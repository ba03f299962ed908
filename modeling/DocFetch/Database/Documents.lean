import DocFetch.Assoc
import DocFetch.Database.Cell
import DocFetch.Document.Basic

/-! # The table of documents

One row per bucket and id. Writing through the table counts how often a document was written; rows that
other programs wrote may hold any cell in any column.
-/

namespace DocFetch

structure DocumentRow where
  kind : Cell
  content : Cell
  cas : Cell
  expiry : Cell
deriving DecidableEq

/-- Rows by bucket and id. -/
abbrev DocumentTable := List ((String × String) × DocumentRow)

namespace DocumentRow

def columns (r : DocumentRow) : List (String × Cell) :=
  [("kind", r.kind), ("content", r.content), ("cas", r.cas), ("expiry", r.expiry)]

/-- The row as its columns keep it. -/
def kept (r : DocumentRow) : DocumentRow :=
  ⟨r.kind.keep .text, r.content, r.cas.keep .integer, r.expiry.keep .integer⟩

/-- Every column has to hold something. -/
def check (r : DocumentRow) : Except Failure DocumentRow :=
  match r.columns.find? fun c => c.2 == .null with
  | some (name, _) =>
    .error (.platform .sqlConstraint ("NOT NULL constraint failed: documents." ++ name))
  | none => .ok r.kept

/-- The content as bytes; a number gives that many zero bytes. -/
def bytes (r : DocumentRow) : Except Failure ByteArray :=
  match r.content with
  | .text s => .ok (Text.encodeUtf8 s)
  | .blob b => .ok b
  | .int n => Value.zeroBytes n
  | _ => .error (.fault .wrongType)

/-- The document under `id` as text. -/
def readText (r : DocumentRow) (id : String) : Except Failure (Document String) := do
  let content ← r.bytes
  unless r.kind == .text "json" do
    .error (.fetch (.say .transcoding ("Document " ++ Text.quoted id ++ " is stored as " ++
      r.kind.display ++ ", not JSON")))
  match Text.decodeUtf8? content with
  | some s => Document.ofStored id s r.cas.toValue r.expiry.toValue
  | none => .error (.fetch (.say .transcoding ("Document " ++ Text.quoted id ++ " is not valid UTF-8")))

/-- The document under `id` as bytes. -/
def readBytes (r : DocumentRow) (id : String) : Except Failure (Document ByteArray) := do
  Document.ofStored id (← r.bytes) r.cas.toValue r.expiry.toValue

/-- The count that follows that of a row. -/
def nextCas (r : DocumentRow) : Except Failure Value :=
  match r.cas with
  | .int n => .ok (.int (n + 1))
  | .real x => .ok (.float (x.add (Binary64.ofInt 1)))
  | _ => .error (.fault .wrongType)

end DocumentRow

namespace DocumentTable

def lookup (t : DocumentTable) (bucket id : String) : Option DocumentRow := Assoc.get? (bucket, id) t

/-- Puts a document in place of one that is there and gives the count of its writes. An expiry that holds
nothing is zero. -/
def upsert (t : DocumentTable) (bucket id kind : String) (content : ByteArray) (expiry : Value) :
    Except Failure (Value × DocumentTable) := do
  let cas ← match t.lookup bucket id with
    | some row => row.nextCas
    | none => .ok (.int 1)
  let count ← Cell.bind 5 cas
  let expiry ← Cell.bind 6 (if expiry == .null then .int 0 else expiry)
  let row ← DocumentRow.check ⟨.text kind, .blob content, count, expiry⟩
  return (cas, Assoc.put (bucket, id) row t)

/-- Adds a row as another program would. -/
def insert (t : DocumentTable) (bucket id : String) (row : DocumentRow) : Except Failure DocumentTable := do
  let row ← row.check
  if (t.lookup bucket id).isSome then
    .error (.platform .sqlConstraint "UNIQUE constraint failed: documents.bucket, documents.id")
  else return t ++ [((bucket, id), row)]

/-- The rows by bucket and id. -/
def sorted (t : DocumentTable) : DocumentTable :=
  t.mergeSort fun a b => a.1.1 < b.1.1 || (a.1.1 == b.1.1 && a.1.2 ≤ b.1.2)

end DocumentTable

end DocFetch
