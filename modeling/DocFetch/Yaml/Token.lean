import DocFetch.Yaml.Content

/-! # Tokens

Indentation becomes explicit starts and ends of blocks. What may turn out to be a key is remembered until
the colon that would make it one, on the same line, comes or does not.
-/

namespace DocFetch.Yaml

inductive Token
  /-- Says which version the text is written for, where it says so at all. -/
  | directive (version : Option Nat) (tag : Option (String × String))
  | documentStart
  | documentEnd
  | blockSequence
  | blockMapping
  | blockEnd
  | openSequence
  | closeSequence
  | openMapping
  | closeMapping
  | comma
  | entry
  | key
  | value
  | alias (name : String)
  | anchor (name : String)
  | tag (handle : Option String) (suffix : String)
  | scalar (text : String) (plain : Bool)
deriving DecidableEq, Repr

/-- A place where a key may have started. -/
structure PossibleKey where
  /-- The number of tokens before it. -/
  position : Nat
  required : Bool
  line : Nat
  column : Nat
  index : Nat

structure Lexer where
  cursor : Cursor
  flow : Nat := 0
  /-- The column of the innermost block, and those of the blocks around it. -/
  indent : Int := -1
  outer : List Int := []
  keyAllowed : Bool := true
  /-- At most one possible key for each depth of brackets. -/
  keys : List (Nat × PossibleKey) := []
  tokens : Array Token := #[]

namespace Lexer

def emit (l : Lexer) (t : Token) : Lexer := { l with tokens := l.tokens.push t }

def goTo (l : Lexer) (c : Cursor) : Lexer := { l with cursor := c }

def allowKey (l : Lexer) (allowed : Bool) : Lexer := { l with keyAllowed := allowed }

/-- Past blanks, comments and ends of lines; a new line may start with a key. -/
def skipToToken : Nat → Lexer → Lexer
  | 0, l => l
  | fuel + 1, l =>
    let c := (l.cursor.skip (· = ' ')).skipComment
    if c.atBreak then
      skipToToken fuel { l with cursor := c.takeBreak.2, keyAllowed := l.keyAllowed || l.flow = 0 }
    else l.goTo c

/-- Forgets keys that ended without a colon. -/
def dropStale (l : Lexer) : Except Failure Lexer :=
  let stale (k : PossibleKey) : Bool := k.line ≠ l.cursor.line || l.cursor.index > k.index + 1024
  if l.keys.any fun e => stale e.2 && e.2.required then malformed
  else .ok { l with keys := l.keys.filter fun e => !stale e.2 }

/-- Forgets the key at the present depth. -/
def dropKey (l : Lexer) : Except Failure Lexer :=
  if l.keys.any fun e => e.1 = l.flow && e.2.required then malformed
  else .ok { l with keys := l.keys.filter fun e => e.1 ≠ l.flow }

/-- Remembers that a key may start here. -/
def saveKey (l : Lexer) : Except Failure Lexer := do
  if l.keyAllowed then
    let l ← l.dropKey
    let k : PossibleKey :=
      { position := l.tokens.size, required := l.flow = 0 && l.indent = l.cursor.column,
        line := l.cursor.line, column := l.cursor.column, index := l.cursor.index }
    return { l with keys := (l.flow, k) :: l.keys }
  else return l

/-- Ends the blocks that are indented more than `column`. -/
def unwind (column : Int) : List Int → Lexer → Lexer
  | [], l => l
  | above :: outer, l =>
    if l.indent > column then unwind column outer { l.emit .blockEnd with indent := above, outer } else l

def unwindTo (column : Int) (l : Lexer) : Lexer := if l.flow = 0 then unwind column l.outer l else l

/-- A block that starts in a column further in; `start` goes to the place `position`. -/
def openBlock (column : Nat) (start : Token) (position : Nat) (l : Lexer) : Lexer :=
  if l.flow = 0 ∧ l.indent < column then
    { l with
      indent := column, outer := l.indent :: l.outer
      tokens := l.tokens.insertIdxIfInBounds position start }
  else l

/-- Ends what came before and takes a mark between documents. -/
def takeMark (l : Lexer) (t : Token) : Except Failure Lexer := do
  let l ← (l.unwindTo (-1)).dropKey
  return ((l.allowKey false).goTo (l.cursor.advance 3)).emit t

def takeOpening (l : Lexer) (t : Token) : Except Failure Lexer := do
  let l ← l.saveKey
  return { (l.goTo l.cursor.step).emit t with flow := l.flow + 1, keyAllowed := true }

def takeClosing (l : Lexer) (t : Token) : Except Failure Lexer := do
  let l ← l.dropKey
  if l.flow = 0 then malformed
  return { (l.goTo l.cursor.step).emit t with flow := l.flow - 1, keyAllowed := false }

def takeComma (l : Lexer) : Except Failure Lexer := do
  let l ← l.dropKey
  return ((l.allowKey true).goTo l.cursor.step).emit .comma

/-- Whether something that starts a line of a block may stand here. -/
def checkPlace (l : Lexer) : Except Failure Unit :=
  if l.flow = 0 ∧ ¬l.keyAllowed then malformed else .ok ()

/-- A hyphen before an item, or a question mark before a key. -/
def takeIndicator (l : Lexer) (start t : Token) (allow : Bool) : Except Failure Lexer := do
  l.checkPlace
  let l ← (l.openBlock l.cursor.column start l.tokens.size).dropKey
  return ((l.allowKey allow).goTo l.cursor.step).emit t

/-- A colon: it makes a key of what was remembered, or stands for itself. -/
def takeColon (l : Lexer) : Except Failure Lexer := do
  match l.keys.lookup l.flow with
  | some k =>
    let l := { l with
      keys := l.keys.filter fun e => e.1 ≠ l.flow
      tokens := l.tokens.insertIdxIfInBounds k.position .key }
    let l := l.openBlock k.column .blockMapping k.position
    return ((l.allowKey false).goTo l.cursor.step).emit .value
  | none => l.takeIndicator .blockMapping .value (l.flow = 0)

def isNameChar (c : Char) : Bool := c.isAlphanum || c = '-' || c = '_'

/-- The name of an anchor or an alias. -/
def takeName (l : Lexer) (make : String → Token) : Except Failure Lexer := do
  let l ← l.saveKey
  let (name, c) := l.cursor.step.span isNameChar
  let ended := parts c.here ||
    c.here.any ['?', ':', ',', ']', '\x7d', '%', '@', '\x60'].contains
  if name.isEmpty || !ended then malformed
  return ((l.allowKey false).goTo c).emit (make (String.ofList name))

def isUriChar (c : Char) : Bool :=
  c.isAlphanum || "-;/?:@&=+$,_.!~*'()[]%".toList.contains c

/-- Letters between exclamation marks that stand for the start of a tag. -/
def tagHandle (c : Cursor) : String × Cursor :=
  let (name, d) := c.step.span isNameChar
  if d.here = some '!' then ("!" ++ String.ofList name ++ "!", d.step) else ("!", c.step)

def takeTag (l : Lexer) : Except Failure Lexer := do
  let l ← l.saveKey
  let c := l.cursor
  let (t, c) ←
    if c.at? 1 = some '<' then
      let (uri, c) := (c.advance 2).span isUriChar
      if uri.isEmpty || c.here ≠ some '>' then malformed
      else pure (Token.tag none (String.ofList uri), c.step)
    else if parts (c.at? 1) then pure (Token.tag none "!", c.step)
    else
      let (handle, c) := tagHandle c
      let (uri, c) := c.span isUriChar
      if uri.isEmpty || (handle = "!" && uri.contains '!') then malformed
      else pure (Token.tag (some handle) (String.ofList uri), c)
  if !parts c.here || c.here = some '\t' then malformed
  return ((l.allowKey false).goTo c).emit t

def takeBlockScalar (l : Lexer) (folded : Bool) : Except Failure Lexer := do
  let l ← l.dropKey
  let (text, c) ← blockScalar folded l.indent l.cursor
  return ((l.allowKey true).goTo c).emit (.scalar (String.ofList text) false)

def takeQuoted (l : Lexer) (quote : Char) : Except Failure Lexer := do
  let l ← l.saveKey
  let (text, c) ← quotedScalar quote l.cursor
  return ((l.allowKey false).goTo c).emit (.scalar (String.ofList text) false)

def takePlain (l : Lexer) : Except Failure Lexer := do
  let l ← l.saveKey
  let (text, c, broke) := plainScalar (l.flow > 0) (l.indent + 1) l.cursor
  return ((l.allowKey broke).goTo c).emit (.scalar (String.ofList text) true)

/-- The numbers of a version. -/
def version? (c : Cursor) : Option (Nat × Cursor) :=
  let (major, c) := c.span Char.isDigit
  let (minor, d) := c.step.span Char.isDigit
  if major.isEmpty || minor.isEmpty || c.here ≠ some '.' then none
  else some (major.foldl (fun n x => 10 * n + (x.toNat - 48)) 0, d)

def takeDirective (l : Lexer) : Except Failure Lexer := do
  let l ← (l.unwindTo (-1)).dropKey
  let (name, c) := l.cursor.step.span isNameChar
  if name.isEmpty || !parts c.here || c.here = some '\t' then malformed
  let blank := c.skip (· = ' ')
  let (t, c) ←
    if name = "YAML".toList then
      match version? blank with
      | some (major, c) => pure (Token.directive (some major) none, c)
      | none => malformed
    else if name = "TAG".toList then
      let (handle, c) := tagHandle blank
      let gap := c.skip (· = ' ')
      let (uri, d) := gap.span isUriChar
      if blank.here ≠ some '!' || c.here ≠ some ' ' || uri.isEmpty then malformed
      else pure (Token.directive none (some (handle, String.ofList uri)), d)
    else pure (Token.directive none none, c.skip fun x => !isBreak x)
  let c := (c.skip (· = ' ')).skipComment
  if !c.rest.isEmpty && !c.atBreak then malformed
  return ((l.allowKey false).goTo c).emit t

/-- Whether a plain scalar may start here. -/
def startsPlain (l : Lexer) (c : Char) : Bool :=
  !parts (some c) && (!"-?:,[]\x7b\x7d#&*!|>'\"%@\x60".toList.contains c ||
    (!parts (l.cursor.at? 1) && (c = '-' || (l.flow = 0 && (c = '?' || c = ':')))))

/-- Takes the token that starts with the character `c`. -/
def take (l : Lexer) (c : Char) : Except Failure Lexer :=
  let apart := parts (l.cursor.at? 1)
  let inFlow := l.flow > 0
  if l.cursor.column = 0 ∧ c = '%' then l.takeDirective
  else if l.cursor.column = 0 ∧ l.cursor.atMark then
    l.takeMark (if c = '-' then .documentStart else .documentEnd)
  else if c = '[' then l.takeOpening .openSequence
  else if c = '\x7b' then l.takeOpening .openMapping
  else if c = ']' then l.takeClosing .closeSequence
  else if c = '\x7d' then l.takeClosing .closeMapping
  else if c = ',' then l.takeComma
  else if c = '-' ∧ apart then l.takeIndicator .blockSequence .entry true
  else if c = '?' ∧ (inFlow ∨ apart) then l.takeIndicator .blockMapping .key !inFlow
  else if c = ':' ∧ (inFlow ∨ apart) then l.takeColon
  else if c = '*' then l.takeName .alias
  else if c = '&' then l.takeName .anchor
  else if c = '!' then l.takeTag
  else if c = '|' ∧ ¬inFlow then l.takeBlockScalar false
  else if c = '>' ∧ ¬inFlow then l.takeBlockScalar true
  else if c = '\'' ∨ c = '"' then l.takeQuoted c
  else if l.startsPlain c then l.takePlain
  else malformed

/-- All tokens up to the end of the text. -/
def run : Nat → Lexer → Except Failure (Array Token)
  | 0, _ => malformed
  | fuel + 1, l => do
    let l ← (skipToToken l.cursor.rest.length l).dropStale
    match l.cursor.here with
    | none => return (← (l.unwindTo (-1)).dropKey).tokens
    | some c => run fuel (← (l.unwindTo l.cursor.column).take c)

end Lexer

/-- Whether a character may stand in a text at all. -/
def isPermitted (c : Char) : Bool :=
  c = '\t' || c = '\n' || (' ' ≤ c && c ≤ '~') || c = '\u0085' || ('\u00a0' ≤ c && c ≠ '\ufffe' && c ≠ '\uffff')

/-- The tokens of a text in which line feeds end lines; a byte order mark at its start is passed over. -/
def tokensOf (cs : List Char) : Except Failure (List Token) := do
  if !cs.all isPermitted then malformed
  let start : Cursor := ⟨cs, 0, 0, 0⟩
  let start := if start.here = some '\ufeff' then start.step else start
  return (← Lexer.run (cs.length + 1) { cursor := start }).toList

end DocFetch.Yaml
