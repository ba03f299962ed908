import DocFetch.Export.Router
import DocFetch.Json.Writer
import DocFetch.Text.Blank
import DocFetch.World

/-! # Export to files

One line of JSON per record in a file per job, channel and run. The file is opened for the first record.
-/

namespace DocFetch.FileExport

def keeps (c : Char) : Bool := c.isAlphanum || c = '_' || c = '-'

/-- Every run of other characters becomes one low line. -/
def sanitize : Bool → List Char → List Char
  | _, [] => []
  | afterOther, c :: rest =>
    if keeps c then c :: sanitize false rest
    else if afterOther then sanitize true rest
    else '_' :: sanitize true rest

/-- How a job is named in the names of its files. -/
def jobPart (job : String) : String :=
  let cs := sanitize false (Text.trimChars job.toList)
  if cs.isEmpty then "job" else String.ofList cs

def fileName (job channel tag : String) : String := jobPart job ++ "-" ++ channel ++ "-" ++ tag ++ ".jsonl"

def line (r : Record) : String := Json.write r.toValue ++ "\n"

def changeStream (n : Nat) (f : Stream → Stream) : Action World Unit :=
  modify fun w => { w with streams := w.streams.modify n f }

def write (n : Nat) (r : Record) : Action World Unit := do
  let some s := (← get).streams[n]? | return
  unless s.isOpen do
    World.changeFiles (·.append s.path .empty)
  changeStream n fun s => { s with isOpen := true, pending := s.pending ++ line r }

def flush (n : Nat) : Action World Unit := do
  let some s := (← get).streams[n]? | return
  if s.isOpen then
    World.changeFiles (·.append s.path (Text.encodeUtf8 s.pending))
    changeStream n fun s => { s with pending := "" }

def close (n : Nat) : Action World Unit := do
  flush n
  changeStream n fun s => { s with isOpen := false }

/-- An exporter to a file in `directory`, which is created. -/
def openAt (directory : Path) (job channel tag : String) : Action World (Exporter World) := do
  World.changeFiles (·.makeDirectories directory)
  let n := (← get).streams.length
  modify fun w => { w with streams := w.streams ++ [{ path := directory.child (fileName job channel tag) }] }
  return { write := write n, flush := flush n, close := close n }

example : jobPart " My Job! " = "My_Job_" := by decide +kernel

end DocFetch.FileExport
