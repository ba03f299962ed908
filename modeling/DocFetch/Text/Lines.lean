/-! # Lines

Two ways to cut a text into lines. Reading a file for its lines takes `\n`, `\r` and `\r\n` as the end
of a line and writes each end as `\n`. Cutting a text at its boundaries takes in further separators
and drops them.
-/

namespace DocFetch.Text

/-- Writes every end of line as a line feed. -/
def unifyNewlines : List Char → List Char
  | [] => []
  | '\r' :: '\n' :: rest => '\n' :: unifyNewlines rest
  | c :: rest => (if c = '\r' then '\n' else c) :: unifyNewlines rest

def unified (s : String) : String := String.ofList (unifyNewlines s.toList)

/-- The lines of a text in which line feeds end lines, each with its end; `line` is the open line,
last character first. -/
def linesFrom (line : List Char) : List Char → List (List Char)
  | [] => if line.isEmpty then [] else [line.reverse]
  | c :: rest =>
    if c = '\n' then ('\n' :: line).reverse :: linesFrom [] rest else linesFrom (c :: line) rest

def readLines (s : String) : List String :=
  (linesFrom [] (unifyNewlines s.toList)).map String.ofList

/-- The characters at which a text is cut into lines. -/
def isLineBoundary (c : Char) : Bool :=
  (10 ≤ c.toNat && c.toNat ≤ 13) || (28 ≤ c.toNat && c.toNat ≤ 30) ||
    c.toNat = 133 || c.toNat = 0x2028 || c.toNat = 0x2029

/-- Pieces between boundaries; a carriage return with a line feed is one boundary and a boundary at
the end opens no further piece. -/
def piecesFrom (piece : List Char) : List Char → List (List Char)
  | [] => if piece.isEmpty then [] else [piece.reverse]
  | '\r' :: '\n' :: rest => piece.reverse :: piecesFrom [] rest
  | c :: rest =>
    if isLineBoundary c then piece.reverse :: piecesFrom [] rest else piecesFrom (c :: piece) rest

def splitLines (s : String) : List String := (piecesFrom [] s.toList).map String.ofList

theorem piecesFrom_cons {c : Char} {cs : List Char} (h : ∀ after, c = '\r' → cs ≠ '\n' :: after) (piece : List Char) :
    piecesFrom piece (c :: cs) =
      if isLineBoundary c then piece.reverse :: piecesFrom [] cs else piecesFrom (c :: piece) cs := by
  rw [piecesFrom]
  exact h

/-- A text is cut at the same places when its line feeds stand for other ends of lines. -/
theorem piecesFrom_unifyNewlines (piece cs : List Char) : piecesFrom piece (unifyNewlines cs) = piecesFrom piece cs := by
  have hfeed (piece cs : List Char) : piecesFrom piece ('\n' :: cs) = piece.reverse :: piecesFrom [] cs := by
    rw [piecesFrom_cons fun _ heq => absurd heq (by decide)]
    rfl
  fun_induction unifyNewlines cs generalizing piece with
  | case1 => rfl
  | case2 rest ih => rw [hfeed, ih, piecesFrom]
  | case3 c rest hnext ih =>
    rw [piecesFrom_cons hnext]
    split
    · rename_i hreturn
      rw [hfeed, ih, hreturn]
      rfl
    · rename_i hreturn
      rw [piecesFrom_cons fun _ heq => absurd heq hreturn, ih, ih]

example : readLines "a\r\n\rb\x0b" = ["a\n", "\n", "b\x0b"] := by decide +kernel
example : splitLines "a\r\n\x0bb\n" = ["a", "", "b"] := by decide +kernel

end DocFetch.Text
