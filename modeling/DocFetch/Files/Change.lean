import DocFetch.Database.Text
import DocFetch.Files.Tree

/-! # What changed in a file tree

What has to be done to the directories and files of a tree so that they become those of another one.
-/

namespace DocFetch

namespace Node

/-- The bytes of a file. -/
def bytes? : Node → Option ByteArray
  | .directory => none
  | .file b => some b
  | .database d tail => some (Text.encodeUtf8 d.text ++ tail)

/-- A file that holds these bytes. -/
def ofBytes (b : ByteArray) : Node :=
  match (Text.decodeUtf8? b).bind Database.ofText? with
  | some (d, tail) => .database d (Text.encodeUtf8 tail)
  | none => .file b

end Node

inductive Change
  | makeDirectory (path : Path)
  | write (path : Path) (content : ByteArray)
  | remove (path : Path)
deriving DecidableEq

/-- The changes that lead to `after`: what it holds anew in its order, then what it no longer holds. -/
def FileTree.changes (before after : FileTree) : List Change :=
  let made := after.nodes.filterMap fun (p, n) =>
    match n.bytes? with
    | none => if before.isDirectory p then none else some (.makeDirectory p)
    | some b => if (before.get? p).bind Node.bytes? = some b then none else some (.write p b)
  made ++ before.nodes.filterMap fun (p, n) =>
    if n.bytes?.isSome && (after.get? p).isNone then some (.remove p) else none

end DocFetch
