import DocFetch.Command.Perform
import DocFetch.Files.Change
import Std.Time.DateTime.Timestamp

/-! # The program

The home directory is the one that `KEYFETCH_HOME` names, or else the working directory. Its files are
read, a command line is carried out on them, and what changed is written back.
-/

namespace DocFetch.Program

/-- The instant from which the system counts. -/
def epoch : Moment := ⟨⟨1970, 1, 1⟩, ⟨0, 0, 0, 0⟩, some 0⟩

def now : IO Moment := do
  let t ← Std.Time.Timestamp.now
  return (Moment.ofInstant? (epoch.instant + t.toNanosecondsSinceUnixEpoch.val / 1000)).getD epoch

/-- The uuid of a number: 32 digits with the marks of a random uuid. -/
def uuid (seed n : Nat) : String :=
  let digits := Text.hexFixed 32 (seed + n * 0x9e3779b97f4a7c15f39cc0605cedc835)
  String.ofList (digits.take 12 ++ '4' :: (digits.drop 13).take 3 ++ 'a' :: digits.drop 17)

/-! ## Files -/

/-- Adds the file or the directory called `name`, if there is one, to a tree at a path. -/
partial def load (name : String) (t : FileTree) (p : Path) : IO FileTree := do
  let some place ← (try some <$> IO.FS.realPath name catch _ => pure none) | return t
  if ← place.isDir then
    let entries ← place.readDir
    entries.foldlM (fun t e => load (name ++ "/" ++ e.fileName) t (p.child e.fileName)) (t.put p .directory)
  else return t.put p (.ofBytes (← IO.FS.readBinFile place))

/-- Adds what is at paths, together with the directories above them. -/
def loadAll (t : FileTree) (paths : List Path) : IO FileTree :=
  paths.foldlM (fun t p => load p.text ((t.makeDirectories p.parent).toOption.getD t) p.resolve) t

def apply : Change → IO Unit
  | .makeDirectory p => IO.FS.createDirAll p.text
  | .write p content => do
    IO.FS.createDirAll p.parent.text
    IO.FS.writeBinFile p.text content
  | .remove p => IO.FS.removeFile p.text

def save (before after : FileTree) : IO Unit := (before.changes after).forM apply

/-- The file that a command line names. -/
def namedFiles (args : List String) : List Path :=
  match (Command.read args).request with
  | .perform (.runJob _ _ _ (some file)) => [.ofText file]
  | _ => []

def openHome (args : List String) : IO Home := do
  let directory ← IO.FS.realPath ((← IO.getEnv "KEYFETCH_HOME").getD ".")
  let layout : Layout := ⟨.ofText directory.toString⟩
  let files ← loadAll {} ([layout.data, layout.logs] ++ namedFiles args)
  let files ← loadAll files (layout.places files)
  let seed := (← IO.getRandomBytes 16).foldl (fun n b => n * 256 + b.toNat) 0
  return { layout, world := { storage := { files } }, now := ← now, uuid := uuid seed }

/-! ## Command lines -/

/-- Prints lines; a prompt stays open for its answer. -/
def print (lines : List String) (prompting : Bool) : IO Unit := do
  let out ← IO.getStdout
  for line in if prompting then lines.dropLast else lines do
    out.putStrLn line
  if prompting then out.putStr (lines.getLastD "" ++ " ")
  out.flush

/-- Carries out a command line and starts over with one more line of input whenever one was missing; the
first `shown` lines of output are there already. -/
partial def converse (home : Home) (args input : List String) (shown : Nat) : IO (Command.Outcome × Home) := do
  let (outcome, after) := (Command.execute args input).run home
  print (outcome.output.drop shown) outcome.waiting
  if !outcome.waiting then return (outcome, after)
  let line ← (← IO.getStdin).getLine
  if line.isEmpty then return (outcome, after)
  converse home args (input ++ [(Text.splitLines line).headD ""]) outcome.output.length

/-- When a schedule of so many seconds ends, if it ends. -/
def deadline (start : Moment) : Binary64 → Option Int
  | .infinite false => none
  | x => some (start.instant + (x.toRatio?.map fun (n, d) => n * 1000000 / (d : Int)).getD 0)

/-- Runs jobs as they come due; every half second what changed is written back. -/
partial def watch (session : Command.Session) (since : Moment) (stop : Option Int) : IO Command.Session := do
  let t ← now
  if stop.any fun n => n ≤ t.instant then return session
  let (_, after) := (Command.runDue since).exec { session with home := { session.home with now := t } }
  save session.home.files after.home.files
  let rest := (stop.map fun n => ((n - t.instant) / 1000).toNat + 1).getD 500
  IO.sleep (UInt32.ofNat (min 500 rest))
  watch after t stop

/-- Schedules the jobs and watches the clock. -/
def runSchedule (home : Home) (seconds : Option Binary64) : IO (Command.Outcome × Home) := do
  match (Command.openSession []).exec home with
  | (.error f, home) => return ({ exit := 1, failure := some f }, home)
  | (.ok session, _) =>
    let (count, session) := Command.startSchedule.exec session
    print session.output false
    let session ← match count with
      | .ok (_ + 1) =>
        save home.files session.home.files
        watch session home.now (seconds.bind (deadline home.now))
      | _ => pure session
    let (_, session) := Command.closeSession.exec session
    return (Command.outcomeOf (count.map fun _ => 0) [], session.home)

end DocFetch.Program

open DocFetch DocFetch.Program in
def main (args : List String) : IO UInt32 := do
  let home ← openHome args
  let (outcome, after) ← match (Command.read args).request with
    | .perform (.schedule seconds) => runSchedule home seconds
    | .perform _ => converse home args [] 0
    | .help | .misuse =>
      Command.usage.forM fun line => IO.eprintln line
      converse home args [] 0
  save home.files after.files
  if let some f := outcome.failure then IO.eprintln (f.kind ++ ": " ++ f.message)
  return UInt32.ofNat outcome.exit
