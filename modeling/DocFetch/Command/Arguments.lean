import DocFetch.Decimal.Binary64
import DocFetch.Text.Integer
import DocFetch.Yaml.Scalar

/-! # Arguments of the command line

Options stand anywhere among the words of a command, long ones with two hyphens and short ones with one,
where short flags can share a hyphen. Two hyphens alone end the options.
-/

namespace DocFetch.Command

structure OptionSpec where
  /-- How the option is found in what was read. -/
  key : String
  long : String
  short : Option Char := none
  takesValue : Bool := true

/-- Options with their values in order, and the other words. -/
structure Parsed where
  options : List (String × String) := []
  words : List String := []

namespace Parsed

def flag (p : Parsed) (key : String) : Bool := Assoc.contains key p.options

/-- The last value of an option. -/
def last? (p : Parsed) (key : String) : Option String := p.options.reverse.lookup key

def all (p : Parsed) (key : String) : List String :=
  (p.options.filter fun e => e.1 = key).map Prod.snd

def add (p : Parsed) (key value : String) : Parsed := { p with options := p.options ++ [(key, value)] }

end Parsed

/-- Splits a long option at its first equals sign. -/
def splitValue (arg : String) : String × Option String :=
  let cs := arg.toList
  let name := cs.takeWhile (· ≠ '=')
  (String.ofList name, if name.length < cs.length then some (String.ofList (cs.drop (name.length + 1))) else none)

/-- Reads short options that share a hyphen. What follows one with a value is its value; if nothing
follows, its key waits for the next word. -/
def readShort (specs : List OptionSpec) (p : Parsed) : List Char → Option (Parsed × Option String)
  | [] => some (p, none)
  | c :: rest =>
    match specs.find? fun s => s.short = some c with
    | none => none
    | some s =>
      if !s.takesValue then readShort specs (p.add s.key "") rest
      else if rest.isEmpty then some (p, some s.key)
      else some (p.add s.key (String.ofList rest), none)

/-- Reads a word that starts with a hyphen. -/
def readOption (specs : List OptionSpec) (p : Parsed) (arg : String) : Option (Parsed × Option String) :=
  let (name, value) := splitValue arg
  match specs.find? fun s => s.long = name with
  | some s =>
    match value, s.takesValue with
    | some v, true => some (p.add s.key v, none)
    | some _, false => none
    | none, true => some (p, some s.key)
    | none, false => some (p.add s.key "", none)
  | none => if ['-', '-'].isPrefixOf arg.toList then none else readShort specs p (arg.toList.drop 1)

/-- Reads words on; with `apart` the first word that is no option ends the options. -/
def readWords (specs : List OptionSpec) (apart : Bool) (waiting : Option String) (p : Parsed) :
    List String → Option Parsed
  | [] => if waiting.isSome then none else some p
  | arg :: rest =>
    match waiting with
    | some key => readWords specs apart none (p.add key arg) rest
    | none =>
      if arg = "--" then some { p with words := p.words ++ rest }
      else if arg.length > 1 ∧ arg.toList.head? = some '-' then
        match readOption specs p arg with
        | some (p, waiting) => readWords specs apart waiting p rest
        | none => none
      else if apart then some { p with words := p.words ++ arg :: rest }
      else readWords specs apart none { p with words := p.words ++ [arg] } rest

def helpOption : OptionSpec := { key := "help", long := "--help", takesValue := false }

def parse (specs : List OptionSpec) (apart : Bool) (args : List String) : Option Parsed :=
  readWords (helpOption :: specs) apart none {} args

/-! ## Commands -/

inductive Task
  | listJobs
  | showJob (name : String)
  | removeJob (name : String) (confirmed : Bool)
  | runJob (name : String) (ids attributes : List String) (file : Option String)
  | schedule (seconds : Option Binary64)
  | showLog (job : Option String) (count : Int)
  | listLogs
deriving DecidableEq, Repr

/-- What a command line asks for. -/
inductive Request
  | perform (task : Task)
  | help
  | misuse
deriving DecidableEq, Repr

/-- The request, and whether a command was named at all: only then a home directory is opened. -/
structure Reading where
  named : Bool
  request : Request
deriving DecidableEq, Repr

/-- A whole number written with digits alone. -/
def wholeNumber? (s : String) : Option Int := if s.contains '.' then none else Text.readInteger? s

/-- A number of seconds. -/
def seconds? (s : String) : Option Binary64 :=
  let cs := (s.toList.dropWhile Text.isNumberBlank).reverse.dropWhile Text.isNumberBlank |>.reverse
  let negative := cs.head? = some '-'
  let body := Yaml.unsigned cs
  let word := (String.ofList body).map Char.toLower
  if word = "inf" ∨ word = "infinity" then some (.infinite negative)
  else if word = "nan" then some .nan
  else if (body.head?.any fun c => c.isDigit || c = '.') ∧ body.any Char.isDigit then
    (Yaml.decimalValue negative (body.filter (· ≠ '_'))).toOption
  else none

/-- A request for a task that takes `count` words. -/
def withWords (specs : List OptionSpec) (count : Nat) (make : Parsed → Option Task) (args : List String) :
    Request :=
  match parse specs false args with
  | none => .misuse
  | some p =>
    if p.flag "help" then .help
    else if p.words.length ≠ count then .misuse
    else ((make p).map Request.perform).getD .misuse

def nameOf (p : Parsed) : String := p.words.headD ""

def yesOption : OptionSpec := { key := "yes", long := "--yes", short := some 'y', takesValue := false }

def runOptions : List OptionSpec :=
  [{ key := "id", long := "--id", short := some 'i' }, { key := "attr", long := "--attr", short := some 'a' },
    { key := "file", long := "--ids-file" }]

/-- A value of an option that is read, if the option is given. -/
def readLast? {α : Type} (p : Parsed) (key : String) (read : String → Option α) (default : α) : Option α :=
  match p.last? key with
  | none => some default
  | some s => read s

def jobRequest (name : String) (args : List String) : Request :=
  match name with
  | "list" => withWords [] 0 (fun _ => some .listJobs) args
  | "show" => withWords [] 1 (fun p => some (.showJob (nameOf p))) args
  | "remove" => withWords [yesOption] 1 (fun p => some (.removeJob (nameOf p) (p.flag "yes"))) args
  | "run" => withWords runOptions 1
      (fun p => some (.runJob (nameOf p) (p.all "id") (p.all "attr") (p.last? "file"))) args
  | _ => .misuse

def logRequest (name : String) (args : List String) : Request :=
  match name with
  | "show" => withWords [{ key := "job", long := "--job" }, { key := "tail", long := "--tail" }] 0
      (fun p => (readLast? p "tail" wholeNumber? 100).map (.showLog (p.last? "job"))) args
  | "list" => withWords [] 0 (fun _ => some .listLogs) args
  | _ => .misuse

/-- A request to a group of commands. -/
def groupRequest (commands : String → List String → Request) (args : List String) : Request :=
  match parse [] true args with
  | none => .misuse
  | some p =>
    if p.flag "help" then .help
    else
      match p.words with
      | [] => .misuse
      | name :: rest => commands name rest

def readCommand (name : String) (args : List String) : Reading :=
  match name with
  | "job" => ⟨true, groupRequest jobRequest args⟩
  | "log" => ⟨true, groupRequest logRequest args⟩
  | "schedule" => ⟨true, withWords [{ key := "duration", long := "--duration" }] 0
      (fun p => (readLast? p "duration" (fun s => (seconds? s).map some) none).map .schedule) args⟩
  | _ => ⟨false, .misuse⟩

/-- What a command line asks for. -/
def read (args : List String) : Reading :=
  match parse [{ key := "verbose", long := "--verbose", takesValue := false }] true args with
  | none => ⟨false, .misuse⟩
  | some p =>
    if p.flag "help" then ⟨false, .help⟩
    else
      match p.words with
      | [] => ⟨false, .misuse⟩
      | name :: rest => readCommand name rest

/-- The forms of a command line. -/
def usage : List String :=
  ["Usage: [--verbose] COMMAND", "  job list", "  job show NAME", "  job remove [-y | --yes] NAME",
    "  job run [-i | --id ID]... [-a | --attr KEY=VALUE]... [--ids-file FILE] NAME",
    "  schedule [--duration SECONDS]", "  log show [--job NAME] [--tail LINES]", "  log list"]

example : read ["job", "run", "x", "-ia", "--attr=k=v", "--id", "b"] =
    ⟨true, .perform (.runJob "x" ["a", "b"] ["k=v"] none)⟩ := by decide +kernel
example : read ["job", "remove", "-y"] = ⟨true, .misuse⟩ := by decide +kernel

end DocFetch.Command
