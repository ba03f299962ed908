import DocFetch.Action
import DocFetch.Files.Tree

/-! # Shared connections

One connection, and one lock, per database file: whoever opens a path that leads to the same file gets
the same. Connections that are closed are never handed out again.

A connection works in transactions. What it wrote shows in all that it reads from then on, also when it could
not be committed; closing the connection takes that back.
-/

namespace DocFetch

/-- What another program does with a file: while one reads nothing can be committed, and while one writes
nothing can be written. -/
inductive Hold
  | reading
  | writing
deriving DecidableEq, Repr

/-- A database as its connection sees it. -/
structure Transaction where
  database : Database
  /-- The database without what was not committed, if there is such. -/
  committed : Option Database := none
  hold : Option Hold := none

namespace Transaction

variable {α : Type}

def locked : Failure := .platform .sqlOperation "database is locked"

def unlessHeld (held : Prop) [Decidable held] : Except Failure Unit := if held then .error locked else .ok ()

def read (f : Database → Except Failure α) : Action Transaction α := do
  Action.ofExcept (f (← get).database)

/-- A write that fails changes nothing. -/
def write (f : Database → Except Failure (α × Database)) : Action Transaction α := do
  let t ← get
  let (a, database) ← Action.ofExcept (f t.database)
  Action.ofExcept (unlessHeld (t.hold = some .writing))
  set { t with database, committed := some (t.committed.getD t.database) }
  return a

def commit : Action Transaction Unit := do
  let t ← get
  Action.ofExcept (unlessHeld (t.committed.isSome ∧ t.hold.isSome))
  set { t with committed := none }

/-- Writes and commits. Nothing takes the write back when the second fails. -/
def save (f : Database → Except Failure (α × Database)) : Action Transaction α := do
  let a ← write f
  commit
  return a

end Transaction

structure Connections where
  live : List (Path × Nat) := []
  locks : List (Path × Nat) := []
  /-- How many were opened so far; each has the number it was opened under. -/
  opened : Nat := 0
  closed : List Nat := []

namespace Connections

/-- The connection and the lock of a file; `prepare` is what a new connection needs. -/
def openAt {σ : Type} (key : Path) (prepare : Action σ Unit) (c : Connections) :
    Action σ ((Nat × Nat) × Connections) :=
  match Assoc.get? key c.live, Assoc.get? key c.locks with
  | some n, some l => return ((n, l), c)
  | _, _ => do
    prepare
    let n := c.opened
    return ((n, n), { c with
      live := Assoc.put key n c.live, locks := Assoc.put key n c.locks, opened := n + 1 })

def reset (key : Path) (c : Connections) : Connections :=
  { c with
    live := Assoc.erase key c.live, locks := Assoc.erase key c.locks
    closed := c.closed ++ (Assoc.get? key c.live).toList }

def closeAll (c : Connections) : Connections :=
  { c with live := [], locks := [], closed := c.closed ++ c.live.map Prod.snd }

end Connections

/-- The files with the connections to their databases. A database is there as its connection sees it. -/
structure Storage where
  files : FileTree := {}
  connections : Connections := {}
  /-- The databases that have something that was not committed, without it. -/
  uncommitted : List (Path × Database) := []
  /-- The files that other programs hold. -/
  holds : List (Path × Hold) := []

namespace Storage

/-- Creates the directory and the file of a database and the tables that every database has. -/
def prepare (key : Path) : Action Storage Unit := do
  let s ← get
  let files ← Action.ofExcept (s.files.makeDirectories key.parent)
  set { s with files }
  let (_, files) ← Action.ofExcept (files.openDatabase key)
  set { s with files }
  let d ← Action.ofExcept (files.database key)
  Action.ofExcept (Transaction.unlessHeld (¬d.HasSchema ∧ (Assoc.get? key s.holds).isSome))
  set { s with files := files.putDatabase key d.withSchema }

/-- The connection to the database at a path. -/
def connect (path : Path) : Action Storage Nat := do
  let ((n, _), connections) ← Connections.openAt path.resolve (prepare path.resolve) (← get).connections
  modify fun s => { s with connections }
  return n

def transaction (s : Storage) (key : Path) (database : Database) : Transaction where
  database := database
  committed := Assoc.get? key s.uncommitted
  hold := Assoc.get? key s.holds

/-- The storage with what a transaction left. -/
def withTransaction (s : Storage) (key : Path) (t : Transaction) : Storage :=
  { s with
    files := s.files.putDatabase key t.database
    uncommitted := match t.committed with
      | some d => Assoc.put key d s.uncommitted
      | none => Assoc.erase key s.uncommitted }

/-- Works on the database at a path. -/
def transact {α : Type} (path : Path) (work : Action Transaction α) : Action Storage α := do
  discard <| connect path
  let s ← get
  let d ← Action.ofExcept (s.files.database path.resolve)
  let ended := work.exec (s.transaction path.resolve d)
  set (s.withTransaction path.resolve ended.2)
  Action.ofExcept ended.1

/-- Writes to the database at a path and commits. -/
def session {α : Type} (path : Path) (f : Database → Except Failure (α × Database)) : Action Storage α :=
  transact path (Transaction.save f)

/-- Takes back what was not committed in a database. -/
def rollBack (s : Storage) (key : Path) : Storage :=
  { s with
    files := match Assoc.get? key s.uncommitted, s.files.databaseAt key with
      | some d, some _ => s.files.putDatabase key d
      | _, _ => s.files
    uncommitted := Assoc.erase key s.uncommitted }

/-- Closes the connection to the database at a path and removes its file. -/
def reset (path : Path) : Action Storage Unit := do
  modify fun s =>
    { s.rollBack path.resolve with connections := s.connections.reset path.resolve }
  let s ← get
  if ← Action.ofExcept (s.files.exists? path.resolve) then
    let files ← Action.ofExcept (s.files.remove path.resolve)
    set { s with files }

def closeAll (s : Storage) : Storage :=
  { (s.uncommitted.map Prod.fst).foldl rollBack s with connections := s.connections.closeAll }

end Storage

end DocFetch
