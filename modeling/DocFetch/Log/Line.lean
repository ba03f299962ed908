import DocFetch.Json.Writer
import DocFetch.Log.Entry

/-! # Lines of a log

An entry is written as one JSON object: the time, the level, the name of the logger, and then what is bound
to the logger, the fields, the event and the level. Loggers form families by the dots of their names.
-/

namespace DocFetch.Log

structure Logger where
  name : String
  bound : List (String × Value) := []

namespace Logger

def main : Logger := { name := "keyfetch" }

def provenance : Logger := { name := "keyfetch.provenance" }

def scheduler : Logger := { name := "keyfetch", bound := [("component", .text "scheduler")] }

def jobName (job : String) : String := "keyfetch.job." ++ job

def job (job : String) : Logger := { name := jobName job, bound := [("job", .text job)] }

/-- The loggers above one. Its name, last character first, is cut at its dots; a dot `beside` the one of the last cut
is passed over, unless what was left there is the name of a logger. -/
def above (isThere : List Char → Bool) (beside : Bool) : List Char → List (List Char)
  | [] => []
  | c :: rest =>
    if c = '.' && !beside then
      if isThere rest then rest :: above isThere false rest else above isThere true rest
    else above isThere false rest

/-- Whether the logger named `other` also takes the entries of one named `name`, among the loggers that were made. -/
def takes (made : List String) (other name : String) : Bool :=
  name = other ||
    (above (fun cs => made.any fun s => s.toList.reverse = cs) false name.toList.reverse).contains other.toList.reverse

example : takes [jobName "a"] (jobName "a") (jobName "a.b") = true ∧
    takes [jobName "a"] (jobName "a") (jobName "ab") = false ∧
    takes [jobName "a"] (jobName "a") (jobName "a..b") = false ∧
    takes [jobName "a", jobName "a."] (jobName "a") (jobName "a..b") = true := by
  decide +kernel

end Logger

def Level.title (l : Level) : String := l.name.map Char.toUpper

/-- What is told about an entry, as fields. -/
def Entry.told (l : Logger) (e : Entry) : List (String × Value) :=
  Assoc.put "level" (.text e.level.name)
    (Assoc.put "event" (.text e.event) (Assoc.merge l.bound e.fields))

def Entry.fieldsAt (l : Logger) (now : Moment) (e : Entry) : List (String × Value) :=
  let millis := padLeft 3 (now.clock.microsecond / 1000)
  let head := [("asctime", .text (now.date.text ++ " " ++ now.clock.toSeconds ++ "," ++ millis)),
    ("levelname", .text e.level.title), ("name", .text l.name), ("message", .text ""),
    ("timestamp", Value.text ({ now with offset := none }.textWith "T" ++ "Z"))]
  Assoc.merge head (e.told l)

def Entry.line (l : Logger) (now : Moment) (e : Entry) : String :=
  Json.writeAscii (.object (e.fieldsAt l now)) ++ "\n"

/-- The fields of a line that do not tell when it was written. -/
def timeless (fields : List (Value × Value)) : List (Value × Value) :=
  fields.filter fun e => !([.text "asctime", .text "timestamp"] : List Value).contains e.1

end DocFetch.Log
