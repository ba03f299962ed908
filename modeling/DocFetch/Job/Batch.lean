import DocFetch.Record.Basic
import DocFetch.Text.Blank
import DocFetch.Text.Lines

/-! # Batches given on the command line

Record contents come from the command line and then from the lines of a file, each with the same
attributes. Attributes alone make one empty record, and nothing at all makes no batch.
-/

namespace DocFetch

/-- Splits at the first `=`. -/
def splitAtEquals : List Char → Option (List Char × List Char)
  | [] => none
  | c :: rest =>
    if c = '=' then some ([], rest)
    else (splitAtEquals rest).map fun (key, value) => (c :: key, value)

/-- An attribute written as `KEY=VALUE`, blanks around the key dropped. -/
def readAttribute (pair : String) : Except Refusal (String × String) :=
  match splitAtEquals pair.toList with
  | none => .error (.malformedAttribute pair)
  | some (key, value) =>
    let key := Text.trimChars key
    if key.isEmpty then .error (.malformedAttribute pair)
    else .ok (String.ofList key, String.ofList value)

def readAttributes (pairs : List String) : Except Refusal Attributes := do
  return Assoc.ofList (← pairs.mapM readAttribute)

/-- The contents listed in a file: its lines without blanks around them, blank lines left out. A file is read
with a line feed for each `\n`, `\r` and `\r\n`, and then cut at every boundary. -/
def listedContents (text : String) : List String :=
  ((Text.splitLines (Text.unified text)).map Text.trim).filter fun s => !s.isEmpty

/-- The contents of the records to make, or none for a run without records. -/
def batchContents (ids listed : List String) (attributes : Attributes) : Option (List String) :=
  match ids ++ listed with
  | [] => if attributes.isEmpty then none else some [""]
  | contents => some contents

/-- The records of a batch; the uuid of the record at place `i` is `uuid i`. -/
def batchRecords (uuid : Nat → String) (contents : List String) (attributes : Attributes) :
    List Record :=
  contents.mapIdx fun i content =>
    { uuid := uuid i, attributes, payload := Text.encodeUtf8 content }

end DocFetch
