import DocFetch.Database.Basic
import DocFetch.Files.Path

/-! # File trees

Directories, files and databases by absolute path. A path is there only when the directory above it is.
-/

namespace DocFetch

/-- Other programs may write at the end of the file of a database: `tail` is what they wrote. -/
inductive Node
  | directory
  | file (content : ByteArray)
  | database (content : Database) (tail : ByteArray := .empty)

structure FileTree where
  nodes : List (Path × Node) := []

namespace FileTree

def get? (t : FileTree) (p : Path) : Option Node :=
  if p.parts.isEmpty then some .directory else Assoc.get? p t.nodes

def put (t : FileTree) (p : Path) (n : Node) : FileTree := ⟨Assoc.put p n t.nodes⟩

def erase (t : FileTree) (p : Path) : FileTree := ⟨Assoc.erase p t.nodes⟩

def isDirectory (t : FileTree) (p : Path) : Bool :=
  match t.get? p with
  | some .directory => true
  | _ => false

def isFile (t : FileTree) (p : Path) : Bool :=
  match t.get? p with
  | some (.file _) | some (.database ..) => true
  | _ => false

def databaseAt (t : FileTree) (p : Path) : Option Database :=
  match t.get? p with
  | some (.database d _) => some d
  | _ => none

/-- The bytes of a file outside of a database in it. -/
def textAt (t : FileTree) (p : Path) : ByteArray :=
  match t.get? p with
  | some (.file b) => b
  | some (.database _ tail) => tail
  | _ => .empty

/-- Puts a database in a file, whose other bytes stay. -/
def putDatabase (t : FileTree) (p : Path) (d : Database) : FileTree := t.put p (.database d (t.textAt p))

/-- Whether a name is too long for a file. -/
def tooLong (name : String) : Bool := name.utf8ByteSize > 255

def hasNul (p : Path) : Bool := p.parts.any fun n => n.toList.any (· = '\x00')

/-- The place that names below `above` lead to: double dots go back, and each name but the last is that of
a directory. -/
def walk (t : FileTree) (above : Path) : List String → Except Failure Path
  | [] => .ok above
  | n :: rest =>
    let here := above.child n
    if n = ".." then walk t above.parent rest
    else if tooLong n then .error (.fault .system)
    else if rest.isEmpty then .ok here
    else
      match t.get? here with
      | some .directory => walk t here rest
      | some _ => .error (.fault .notDirectory)
      | none => .error (.fault .noSuchFile)

/-- The place that a path leads to. -/
def locate (t : FileTree) (p : Path) : Except Failure Path :=
  if hasNul p then .error (.fault .badValue) else walk t ⟨"/", []⟩ p.parts

/-- What is at a path; only a name too long is refused. -/
def look (t : FileTree) (p : Path) : Except Failure (Option Node) :=
  match t.locate p with
  | .ok q => .ok (t.get? q)
  | .error (.platform .system m) => .error (.platform .system m)
  | .error _ => .ok none

def exists? (t : FileTree) (p : Path) : Except Failure Bool := do return (← t.look p).isSome

/-- Creates the directories below `above` that are not there. -/
def makeDirectoriesFrom (t : FileTree) (above : Path) : List String → Except Failure FileTree
  | [] => .ok t
  | n :: rest =>
    let here := above.child n
    if n = ".." then makeDirectoriesFrom t above.parent rest
    else if tooLong n then .error (.fault .system)
    else
      match t.get? here with
      | some .directory => makeDirectoriesFrom t here rest
      | some _ => .error (.fault (if rest.isEmpty then .fileExists else .notDirectory))
      | none => makeDirectoriesFrom (t.put here .directory) here rest

def makeDirectories (t : FileTree) (p : Path) : Except Failure FileTree :=
  if hasNul p then .error (.fault .badValue) else makeDirectoriesFrom t ⟨"/", []⟩ p.parts

/-- The place of a file that is opened for writing. -/
def openEnd (t : FileTree) (p : Path) : Except Failure Path := do
  let q ← t.locate p
  if t.isDirectory q then .error (.fault .isDirectory) else .ok q

/-- Writes a file in place of one that is there. -/
def write (t : FileTree) (p : Path) (content : ByteArray) : Except Failure FileTree := do
  return t.put (← t.openEnd p) (.file content)

/-- Writes at the end of a file. -/
def append (t : FileTree) (p : Path) (content : ByteArray) : Except Failure FileTree := do
  let q ← t.openEnd p
  match t.databaseAt q with
  | some d => return t.put q (.database d (t.textAt q ++ content))
  | none => return t.put q (.file (t.textAt q ++ content))

def read (t : FileTree) (p : Path) : Except Failure ByteArray := do
  let q ← t.locate p
  match t.get? q with
  | some .directory => .error (.fault .isDirectory)
  | some _ => .ok (t.textAt q)
  | none => .error (.fault .noSuchFile)

/-- Removes a file. -/
def remove (t : FileTree) (p : Path) : Except Failure FileTree := do
  let q ← t.locate p
  match t.get? q with
  | some .directory => .error (.fault .isDirectory)
  | some _ => return t.erase q
  | none => .error (.fault .noSuchFile)

def cannotOpen : Failure := .platform .sqlOperation "unable to open database file"

/-- Opens a database file, which is created if it is not there, and gives its place. -/
def openDatabase (t : FileTree) (p : Path) : Except Failure (Path × FileTree) :=
  match t.locate p with
  | .error (.platform .badValue m) => .error (.platform .badValue m)
  | .error _ => .error cannotOpen
  | .ok q =>
    match t.get? q with
    | some .directory => .error cannotOpen
    | some (.file b) => .ok (q, if b.isEmpty then t.put q (.database {}) else t)
    | some (.database ..) => .ok (q, t)
    | none => .ok (q, t.put q (.database {}))

/-- The database in a file. -/
def database (t : FileTree) (p : Path) : Except Failure Database :=
  match t.get? p with
  | some (.database d _) => .ok d
  | some (.file _) => .error (.platform .sqlFile "file is not a database")
  | some .directory => .error cannotOpen
  | none => .ok {}

/-- The paths directly below a directory. -/
def children (t : FileTree) (p : Path) : List Path :=
  (t.nodes.map Prod.fst).filter fun q => q.parent = p ∧ q ≠ p

/-- The paths anywhere below a directory. -/
def below (t : FileTree) (p : Path) : List (Path × Node) :=
  t.nodes.filter fun e => p.contains e.1 && e.1 ≠ p

end FileTree

end DocFetch
