import DocFetch.Failure

/-! # Places in a text

A cursor knows the line and the column of what comes next. Blanks, ends of lines and the marks between
documents are recognised here.
-/

namespace DocFetch.Yaml

def malformed {α : Type} : Except Failure α := .error (.fault .malformedYaml)

def isBreak (c : Char) : Bool := c = '\n' || c = '\u0085' || c = '\u2028' || c = '\u2029'

/-- Whether a character, or the end of the text, parts tokens. -/
def parts : Option Char → Bool
  | none => true
  | some c => c = ' ' || c = '\t' || isBreak c

structure Cursor where
  rest : List Char
  line : Nat := 0
  column : Nat := 0
  /-- How many characters lie before. -/
  index : Nat := 0

namespace Cursor

def here (c : Cursor) : Option Char := c.rest.head?

def at? (c : Cursor) (n : Nat) : Option Char := c.rest[n]?

/-- Past one character; the byte order mark takes no room. -/
def step (c : Cursor) : Cursor :=
  match c.rest with
  | [] => c
  | x :: rest =>
    if isBreak x then ⟨rest, c.line + 1, 0, c.index + 1⟩
    else ⟨rest, c.line, if x = '\ufeff' then c.column else c.column + 1, c.index + 1⟩

def advance : Nat → Cursor → Cursor
  | 0, c => c
  | n + 1, c => advance n c.step

/-- The longest run of characters that satisfy `p`. -/
def span (p : Char → Bool) (c : Cursor) : List Char × Cursor :=
  let cs := c.rest.takeWhile p
  (cs, c.advance cs.length)

def skip (p : Char → Bool) (c : Cursor) : Cursor := (c.span p).2

def atBreak (c : Cursor) : Bool := c.here.any isBreak

/-- An end of line as the content of a scalar: a next line counts as a line feed. -/
def takeBreak (c : Cursor) : Char × Cursor :=
  (match c.here with
    | some x => if x = '\u0085' then '\n' else x
    | none => '\n', c.step)

/-- Whether a mark of the start or the end of a document is next, at the start of a line. -/
def atMark (c : Cursor) : Bool :=
  (['-', '-', '-'].isPrefixOf c.rest || ['.', '.', '.'].isPrefixOf c.rest) && parts (c.at? 3)

def skipComment (c : Cursor) : Cursor :=
  if c.here = some '#' then c.skip (fun x => !isBreak x) else c

end Cursor

/-- Lines that follow each other in a scalar: one end of line becomes a blank, more than one leave out the
first. -/
def joinLines (first : Char) (breaks : List Char) : List Char :=
  if first ≠ '\n' then first :: breaks else if breaks.isEmpty then [' '] else breaks

end DocFetch.Yaml
