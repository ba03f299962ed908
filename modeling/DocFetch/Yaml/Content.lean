import DocFetch.Text.Digits
import DocFetch.Yaml.Cursor

/-! # Contents of scalars

Plain scalars end where something else could start; quoted scalars at their quote; block scalars where
the text is indented less.
-/

namespace DocFetch.Yaml

/-! ## Plain scalars -/

/-- Whether a plain scalar ends before a character. -/
def endsPlain (inFlow : Bool) (c : Char) (next : Option Char) : Bool :=
  parts (some c) || (inFlow && [',', '?', '[', ']', '\x7b', '\x7d'].contains c) ||
    (c = ':' && (parts next || (inFlow && next.any [',', '[', ']', '\x7b', '\x7d'].contains)))

def plainRun (inFlow : Bool) : List Char → List Char
  | [] => []
  | c :: rest => if endsPlain inFlow c rest.head? then [] else c :: plainRun inFlow rest

/-- Empty lines inside a plain scalar; none at a mark between documents. -/
def plainBreaks : Nat → Cursor → Option (List Char) × Cursor
  | 0, c => (some [], c)
  | fuel + 1, c =>
    let c := c.skip (· = ' ')
    if c.atBreak then
      let (b, c) := c.takeBreak
      if c.atMark then (none, c)
      else
        let (bs, c) := plainBreaks fuel c
        (bs.map (b :: ·), c)
    else (some [], c)

/-- What stands between two pieces of a plain scalar, and whether a line ended there. -/
def plainGap (c : Cursor) : List Char × Cursor × Bool :=
  let (blanks, c) := c.span (· = ' ')
  if c.atBreak then
    let (first, c) := c.takeBreak
    if c.atMark then ([], c, true)
    else
      match plainBreaks c.rest.length c with
      | (some breaks, c) => (joinLines first breaks, c, true)
      | (none, c) => ([], c, true)
  else (blanks, c, false)

/-- Reads on after `text`; `gap` waits for a further piece. Says whether the last thing read was the end
of a line. -/
def plainFrom (inFlow : Bool) (indent : Int) : Nat → Cursor → List Char → List Char → Bool →
    List Char × Cursor × Bool
  | 0, c, text, _, broke => (text, c, broke)
  | fuel + 1, c, text, gap, broke =>
    let run := if c.here = some '#' then [] else plainRun inFlow c.rest
    if run.isEmpty then (text, c, broke)
    else
      let text := text ++ gap ++ run
      let (gap, c, broke) := plainGap (c.advance run.length)
      if gap.isEmpty || (!inFlow && (c.column : Int) < indent) then (text, c, broke)
      else plainFrom inFlow indent fuel c text gap broke

def plainScalar (inFlow : Bool) (indent : Int) (c : Cursor) : List Char × Cursor × Bool :=
  plainFrom inFlow indent c.rest.length c [] [] false

/-! ## Quoted scalars -/

/-- Empty lines inside quotes, where no document may start or end. -/
def quotedBreaks : Nat → Cursor → Except Failure (List Char × Cursor)
  | 0, c => .ok ([], c)
  | fuel + 1, c =>
    if c.atMark then malformed
    else
      let c := c.skip fun x => x = ' ' || x = '\t'
      if c.atBreak then do
        let (b, c) := c.takeBreak
        let (bs, c) ← quotedBreaks fuel c
        return (b :: bs, c)
      else .ok ([], c)

def quotedGap (c : Cursor) : Except Failure (List Char × Cursor) := do
  let (blanks, c) := c.span fun x => x = ' ' || x = '\t'
  if c.atBreak then
    let (first, c) := c.takeBreak
    let (breaks, c) ← quotedBreaks c.rest.length c
    return (joinLines first breaks, c)
  else return (blanks, c)

/-- Characters with a short escape. -/
def shortEscapes : List (Char × Char) :=
  [('0', '\x00'), ('a', '\x07'), ('b', '\x08'), ('t', '\t'), ('\t', '\t'), ('n', '\n'), ('v', '\x0b'),
    ('f', '\x0c'), ('r', '\r'), ('e', '\x1b'), (' ', ' '), ('"', '"'), ('\\', '\\'), ('/', '/'),
    ('N', '\u0085'), ('_', '\u00a0'), ('L', '\u2028'), ('P', '\u2029')]

/-- How many digits follow the letter of an escape by number. -/
def escapeWidth? (c : Char) : Option Nat :=
  if c = 'x' then some 2 else if c = 'u' then some 4 else if c = 'U' then some 8 else none

/-- The character of a number, which may be no number of a character. -/
def codePoint (n : Nat) : Except Failure Char :=
  if n ≤ 0x10ffff then .ok (if n.isValidChar then Char.ofNat n else '\ufffd') else .error (.fault .badValue)

/-- The content of an escape, after its backslash. -/
def escaped (c : Cursor) : Except Failure (List Char × Cursor) := do
  let some x := c.here | malformed
  match shortEscapes.lookup x, escapeWidth? x with
  | some y, _ => return ([y], c.step)
  | none, some width =>
    let c := c.step
    let ds := c.rest.take width
    match Text.hexNumber? ds with
    | some n => if ds.length = width then return ([← codePoint n], c.advance width) else malformed
    | none => malformed
  | none, none => if isBreak x then quotedBreaks c.rest.length c.step else malformed

/-- Reads on after the opening quote. -/
def quotedFrom (quote : Char) : Nat → Cursor → List Char → Except Failure (List Char × Cursor)
  | 0, _, _ => malformed
  | fuel + 1, c, text => do
    let some x := c.here | malformed
    if x = quote then
      if quote = '\'' ∧ c.at? 1 = some '\'' then quotedFrom quote fuel (c.advance 2) (text ++ ['\''])
      else return (text, c.step)
    else if quote = '"' ∧ x = '\\' then
      let (more, c) ← escaped c.step
      quotedFrom quote fuel c (text ++ more)
    else if parts (some x) then
      let (gap, c) ← quotedGap c
      quotedFrom quote fuel c (text ++ gap)
    else
      let (run, c) := c.span fun y => !parts (some y) && y ≠ '\'' && y ≠ '"' && y ≠ '\\'
      if run.isEmpty then quotedFrom quote fuel c.step (text ++ [x]) else quotedFrom quote fuel c (text ++ run)

def quotedScalar (quote : Char) (c : Cursor) : Except Failure (List Char × Cursor) :=
  quotedFrom quote (c.rest.length + 1) c.step []

/-! ## Block scalars -/

/-- What becomes of the ends of line after the last line of text. -/
inductive Chomping
  | strip
  | clip
  | keep
deriving DecidableEq

def chomping? (c : Cursor) : Option (Chomping × Cursor) :=
  if c.here = some '+' then some (.keep, c.step)
  else if c.here = some '-' then some (.strip, c.step)
  else none

/-- An indentation given by a digit other than zero. -/
def indentation? (c : Cursor) : Except Failure (Option (Nat × Cursor)) :=
  match c.here with
  | some x =>
    if x = '0' then malformed
    else if x.isDigit then .ok (some (x.toNat - 48, c.step))
    else .ok none
  | none => .ok none

/-- Chomping and indentation in either order. -/
def blockHeader (c : Cursor) : Except Failure (Chomping × Option Nat × Cursor) := do
  match chomping? c with
  | some (chomping, c) =>
    match ← indentation? c with
    | some (n, c) => return (chomping, some n, c)
    | none => return (chomping, none, c)
  | none =>
    match ← indentation? c with
    | some (n, c) =>
      match chomping? c with
      | some (chomping, c) => return (chomping, some n, c)
      | none => return (.clip, some n, c)
    | none => return (.clip, none, c)

/-- The rest of the line of a header. -/
def headerEnd (c : Cursor) : Except Failure Cursor :=
  if !parts c.here || c.here = some '\t' then malformed
  else
    let c := (c.skip (· = ' ')).skipComment
    if c.rest.isEmpty then .ok c else if c.atBreak then .ok c.takeBreak.2 else malformed

/-- Empty lines before the first line of text, and the widest indentation seen. -/
def leadingBreaks : Nat → Cursor → Nat → List Char × Nat × Cursor
  | 0, c, widest => ([], widest, c)
  | fuel + 1, c, widest =>
    if c.atBreak then
      let (b, c) := c.takeBreak
      let (bs, widest, c) := leadingBreaks fuel c widest
      (b :: bs, widest, c)
    else if c.here = some ' ' then leadingBreaks fuel c.step (max widest c.step.column)
    else ([], widest, c)

def skipIndent (indent : Nat) (c : Cursor) : Cursor :=
  c.advance (min (indent - c.column) (c.span (· = ' ')).1.length)

def blockBreaks (indent : Nat) : Nat → Cursor → List Char × Cursor
  | 0, c => ([], skipIndent indent c)
  | fuel + 1, c =>
    let c := skipIndent indent c
    if c.atBreak then
      let (b, c) := c.takeBreak
      let (bs, c) := blockBreaks indent fuel c
      (b :: bs, c)
    else ([], c)

def isTabbed (c : Option Char) : Bool := c = some ' ' || c = some '\t'

/-- Reads lines on; gives the text with the end of the last line apart, and the empty lines after it. -/
def blockLines (folded : Bool) (indent : Nat) : Nat → Cursor → List Char → List Char →
    List Char × List Char × List Char × Cursor
  | 0, c, text, breaks => (text, [], breaks, c)
  | fuel + 1, c, text, breaks =>
    let indented := isTabbed c.here
    let (line, c) := c.span fun x => !isBreak x
    let text := text ++ breaks ++ line
    let (ending, c) := if c.atBreak then let (b, c) := c.takeBreak; ([b], c) else ([], c)
    let (breaks, c) := blockBreaks indent c.rest.length c
    if c.column = indent ∧ ¬c.rest.isEmpty then
      let joined := if folded && ending = ['\n'] && !indented && !isTabbed c.here then
        (if breaks.isEmpty then [' '] else []) else ending
      blockLines folded indent fuel c (text ++ joined) breaks
    else (text, ending, breaks, c)

/-- A block scalar after its mark, inside a block indented by `parent`. -/
def blockScalar (folded : Bool) (parent : Int) (c : Cursor) : Except Failure (List Char × Cursor) := do
  let (chomping, increment, c) ← blockHeader c.step
  let c ← headerEnd c
  let least := max 1 (parent + 1).toNat
  let (breaks, indent, c) := match increment with
    | some n =>
      let indent := least + n - 1
      let (breaks, c) := blockBreaks indent c.rest.length c
      (breaks, indent, c)
    | none =>
      let (breaks, widest, c) := leadingBreaks c.rest.length c 0
      (breaks, max least widest, c)
  let (text, ending, breaks, c) :=
    if c.column = indent ∧ ¬c.rest.isEmpty then blockLines folded indent c.rest.length c [] breaks
    else ([], [], breaks, c)
  return (match chomping with
    | .strip => text
    | .clip => text ++ ending
    | .keep => text ++ ending ++ breaks, c)

end DocFetch.Yaml
