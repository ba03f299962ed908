import DocFetch.Command.Markup
import DocFetch.Failure

/-! # The console

Texts are broken into lines that fit, between words where that is possible. Tables have a title, a header
and rows, and columns as wide as they need.
-/

namespace DocFetch.Console

def width : Nat := 200

/-- Characters that move the cursor have no place on the console. -/
def isControl (c : Char) : Bool := c = '\x07' || c = '\x08' || c = '\x0b' || c = '\x0c' || c = '\r'

def clean (s : String) : String := String.ofList (s.toList.filter fun c => !isControl c)

/-- Words with the blanks around them; `word` was read before, last character first, and `ended` says that
blanks after it began. -/
def wordsFrom (word : List Char) (started ended : Bool) : List Char → List (List Char)
  | [] => if started then [word.reverse] else []
  | c :: rest =>
    if Text.isBlank c then wordsFrom (c :: word) started started rest
    else if ended then word.reverse :: wordsFrom [c] true false rest
    else wordsFrom (c :: word) true false rest

def chunks (size : Nat) : Nat → List Char → List (List Char)
  | 0, _ => []
  | fuel + 1, cs => if cs.length ≤ size then [cs] else cs.take size :: chunks size fuel (cs.drop size)

/-- Puts words on lines; a word that fits on no line is cut. -/
def fill (line : List Char) (done : List (List Char)) : List (List Char) → List (List Char)
  | [] => (line :: done).reverse
  | w :: rest =>
    let bare := (w.reverse.dropWhile Text.isBlank).length
    if line.length + bare ≤ width then fill (line ++ w) done rest
    else if bare > width then
      let parts := chunks width w.length w
      fill (parts.getLastD []) (parts.dropLast.reverse ++ if line.isEmpty then done else line :: done) rest
    else fill w (if line.isEmpty then done else line :: done) rest

def wrapLine (cs : List Char) : List String := (fill [] [] (wordsFrom [] false false cs)).map String.ofList

def lines (s : String) : List String := ((clean s).toList.splitOn '\n').flatMap wrapLine

/-- A text with tags as lines. -/
def marked (s : String) : Except Failure (List String) :=
  match Markup.render? s with
  | some s => .ok (lines s)
  | none => .error (.foreign "MarkupError" [])

/-- What a table shows; cells are plain text. -/
structure Table where
  title : String
  header : List String
  rows : List (List String)

namespace Table

/-- A text that may hold tags, for a cell. -/
def cell (s : String) : Except Failure String :=
  match Markup.render? s with
  | some s => .ok (clean s)
  | none => .error (.foreign "MarkupError" [])

def fillUp (size : Nat) (s : String) : String := s ++ String.ofList (List.replicate (size - s.length) ' ')

/-- A row as wide as its columns; a cell of several lines makes as many lines. -/
def rowLines (sizes : List Nat) (row : List String) : List String :=
  let parts := row.map fun s => (s.toList.splitOn '\n').map String.ofList
  let height := (parts.map List.length).foldl max 1
  (List.range height).map fun i =>
    "  " ++ "   ".intercalate ((sizes.zip parts).map fun (n, ls) => fillUp n (ls.getD i ""))

def sizes (t : Table) : List Nat :=
  (List.range t.header.length).map fun i =>
    ((t.header :: t.rows).map fun r => ((r.getD i "").toList.splitOn '\n').map List.length |>.foldl max 0).foldl max 0

def lines (t : Table) : List String :=
  let total := t.sizes.foldl (fun n k => n + k + 3) 1
  let centered := String.ofList (List.replicate ((total - t.title.length) / 2) ' ') ++ t.title
  [centered] ++ rowLines t.sizes t.header ++ [" " ++ String.ofList (List.replicate (total - 2) '─')] ++
    t.rows.flatMap (rowLines t.sizes)

end Table

example : wrapLine "a  b ".toList = ["a  b "] := by decide +kernel

end DocFetch.Console
