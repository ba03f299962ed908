import DocFetch.Text.Digits
import DocFetch.Value.Display
import DocFetch.Yaml.Cursor
import DocFetch.Yaml.Scalar

/-! # Writing YAML

Block style with two columns of indentation, where the items of a sequence inside an entry are not indented.
A text is plain if it reads back as that text, else in single quotes, and in double quotes when it needs
escapes. Lines are folded once they are too long.
-/

namespace DocFetch.Yaml

structure Layout where
  /-- Whether characters beyond ASCII stand for themselves. -/
  unicode : Bool := true
  width : Nat := 80

/-! ## Texts -/

/-- Whether a character stands for itself outside double quotes. -/
def standsPlain (o : Layout) (c : Char) : Bool :=
  c = '\n' || (' ' ≤ c && c ≤ '~') ||
    (o.unicode && (c = '\u0085' || ('\u00a0' ≤ c && c ≠ '\ufeff' && c ≠ '\ufffe' && c ≠ '\uffff' &&
      c.toNat ≠ 0x10ffff)))

/-- Whether a first character followed by `next` could start something other than a plain scalar. -/
def opensOther (c : Char) (next : Option Char) : Bool :=
  "#,[]\x7b\x7d&*!|>'\"%@\x60".toList.contains c || ((c = '?' || c = ':' || c = '-') && parts next)

/-- Whether an end of a key or a comment seems to be inside; `previous` is the character before. -/
def hidesMark (previous : Char) : List Char → Bool
  | [] => false
  | c :: rest =>
    (c = ':' && parts rest.head?) || (c = '#' && parts (some previous)) || hidesMark c rest

def looksMarked (cs : List Char) : Bool :=
  ['-', '-', '-'].isPrefixOf cs || ['.', '.', '.'].isPrefixOf cs ||
    match cs with
    | [] => false
    | c :: rest => opensOther c rest.head? || hidesMark c rest

/-- Whether a blank stands beside an end of line. -/
def mixesGaps : List Char → Bool
  | a :: b :: rest => (a = ' ' && isBreak b) || (isBreak a && b = ' ') || mixesGaps (b :: rest)
  | _ => false

def isGap (c : Char) : Bool := c = ' ' || isBreak c

inductive Quoting
  | plain
  | single
  | double
deriving DecidableEq

/-- How a text is written. -/
def quotingOf (o : Layout) (s : String) : Quoting :=
  let cs := s.toList
  if mixesGaps cs || !cs.all (standsPlain o) then .double
  else if kindOf s ≠ .text || cs.head?.any isGap || cs.getLast?.any isGap || cs.any isBreak || looksMarked cs then
    .single
  else .plain

/-- Runs of blanks, of ends of line, and of other characters. -/
def runsOf : List Char → List (List Char)
  | [] => []
  | c :: rest =>
    match runsOf rest with
    | (d :: run) :: more =>
      if (c = ' ' ∧ d = ' ') ∨ (isBreak c ∧ isBreak d) ∨ (¬isGap c ∧ ¬isGap d) then (c :: d :: run) :: more
      else [c] :: (d :: run) :: more
    | more => [c] :: more

def pad (n : Nat) : List Char := List.replicate n ' '

def newLine (indent : Nat) : List Char := '\n' :: pad indent

/-- Writes runs of a text; one blank inside the text becomes an end of line when the line is full. -/
def foldRuns (o : Layout) (split : Bool) (indent : Nat) (double : Char → List Char) (column : Nat) (first : Bool) :
    List (List Char) → List Char
  | [] => []
  | run :: rest =>
    if run.any isBreak then
      (if run.head? = some '\n' then ['\n'] else []) ++ run ++ pad indent ++
        foldRuns o split indent double indent false rest
    else if run = [' '] ∧ split ∧ column > o.width ∧ ¬first ∧ ¬rest.isEmpty then
      newLine indent ++ foldRuns o split indent double indent false rest
    else
      let written := run.flatMap double
      written ++ foldRuns o split indent double (column + written.length) false rest

def plainText (o : Layout) (split : Bool) (indent column : Nat) (cs : List Char) : List Char :=
  foldRuns o split indent (fun c => [c]) column true (runsOf cs)

def singleQuoted (o : Layout) (split : Bool) (indent column : Nat) (cs : List Char) : List Char :=
  let double (c : Char) : List Char := if c = '\'' then ['\'', '\''] else [c]
  '\'' :: foldRuns o split indent double (column + 1) true (runsOf cs) ++ ['\'']

def escapeNames : List (Char × Char) :=
  [('\x00', '0'), ('\x07', 'a'), ('\x08', 'b'), ('\t', 't'), ('\n', 'n'), ('\x0b', 'v'), ('\x0c', 'f'),
    ('\r', 'r'), ('\x1b', 'e'), ('"', '"'), ('\\', '\\'), ('\u0085', 'N'), ('\u00a0', '_'), ('\u2028', 'L'),
    ('\u2029', 'P')]

def needsEscape (o : Layout) (c : Char) : Bool :=
  ['"', '\\', '\u0085', '\u2028', '\u2029', '\ufeff'].contains c ||
    !((' ' ≤ c && c ≤ '~') || (o.unicode && '\u00a0' ≤ c && c ≤ '\ufffd'))

def escapeOf (c : Char) : List Char :=
  let upper (width : Nat) : List Char := (Text.hexFixed width c.toNat).map Char.toUpper
  match escapeNames.lookup c with
  | some name => ['\\', name]
  | none =>
    if c ≤ '\u00ff' then '\\' :: 'x' :: upper 2
    else if c ≤ '\uffff' then '\\' :: 'u' :: upper 4
    else '\\' :: 'U' :: upper 8

/-- Writes on after `index` characters, of which `pending` are not yet written. A full line ends in a
backslash, and so does what would be a blank at the start of the next one. -/
def doubleFrom (o : Layout) (split : Bool) (indent length : Nat) (index column : Nat) (pending : List Char) :
    List Char → List Char
  | [] => pending
  | c :: rest =>
    let inside := split && index > 0 && index + 1 < length
    if needsEscape o c then
      let written := pending ++ escapeOf c
      let column := column + written.length
      if inside && column > o.width + 1 then
        let blank := if rest.head? = some ' ' then ['\\'] else []
        written ++ ['\\'] ++ newLine indent ++ blank ++
          doubleFrom o split indent length (index + 1) (indent + blank.length) [] rest
      else written ++ doubleFrom o split indent length (index + 1) column [] rest
    else if inside && (c = ' ' || pending.isEmpty) && column + pending.length > o.width then
      let blank := if c = ' ' then ['\\'] else []
      pending ++ ['\\'] ++ newLine indent ++ blank ++
        doubleFrom o split indent length (index + 1) (indent + blank.length) [c] rest
    else doubleFrom o split indent length (index + 1) column (pending ++ [c]) rest

def doubleQuoted (o : Layout) (split : Bool) (indent column : Nat) (cs : List Char) : List Char :=
  '"' :: doubleFrom o split indent cs.length 0 (column + 1) [] cs ++ ['"']

def textScalar (o : Layout) (split : Bool) (indent column : Nat) (s : String) : List Char :=
  match quotingOf o s with
  | .plain => plainText o split indent column s.toList
  | .single => singleQuoted o split indent column s.toList
  | .double => doubleQuoted o split indent column s.toList

/-! ## Values -/

def floatText (x : Binary64) : String :=
  match x with
  | .nan => ".nan"
  | .infinite negative => if negative then "-.inf" else ".inf"
  | x =>
    let cs := (Value.float x).display.toList
    if cs.contains '.' then String.ofList cs
    else String.ofList (cs.flatMap fun c => if c = 'e' then ['.', '0', 'e'] else [c])

/-- A value that takes no lines of its own, written from `column` on. -/
def scalar (o : Layout) (split : Bool) (indent column : Nat) : Value → List Char
  | .null => "null".toList
  | .bool b => (if b then "true" else "false").toList
  | .int n => (toString n).toList
  | .float x => (floatText x).toList
  | .text s => textScalar o split indent column s
  | .list _ => ['[', ']']
  | .map _ => ['\x7b', '\x7d']
  | v => v.display.toList

/-- Whether a key goes before its colon on one line. -/
def isSimpleKey : Value → Bool
  | .text s => !s.isEmpty && s.length < 123 && !s.toList.any isBreak
  | _ => true

def joinEntries (indent : Nat) (entries : List (List Char)) : List Char :=
  (newLine indent).intercalate entries

mutual

/-- A value after a mark in the column `indent`. -/
def afterMark (o : Layout) (indent : Nat) : Value → List Char
  | .list (v :: rest) => joinEntries (indent + 2) (itemTexts o (indent + 2) (v :: rest))
  | .map (e :: rest) => joinEntries (indent + 2) (entryTexts o (indent + 2) (e :: rest))
  | v => scalar o true (indent + 2) (indent + 2) v

/-- A value after a key that ends in `column`. -/
def afterKey (o : Layout) (indent column : Nat) : Value → List Char
  | .list (v :: rest) => newLine indent ++ joinEntries indent (itemTexts o indent (v :: rest))
  | .map (e :: rest) => newLine (indent + 2) ++ joinEntries (indent + 2) (entryTexts o (indent + 2) (e :: rest))
  | v => ' ' :: scalar o true (indent + 2) (column + 2) v

def itemTexts (o : Layout) (indent : Nat) : List Value → List (List Char)
  | [] => []
  | v :: rest => ('-' :: ' ' :: afterMark o indent v) :: itemTexts o indent rest

def entryTexts (o : Layout) (indent : Nat) : List (Value × Value) → List (List Char)
  | [] => []
  | (k, v) :: rest =>
    (if isSimpleKey k then
      let key := scalar o false indent indent k
      key ++ ':' :: afterKey o indent (indent + key.length) v
    else
      '?' :: ' ' :: scalar o true (indent + 2) (indent + 2) k ++ newLine indent ++ ':' :: ' ' ::
        afterMark o indent v) :: entryTexts o indent rest

end

/-- The text of a mapping. -/
def write (o : Layout) (entries : List (Value × Value)) : String :=
  if entries.isEmpty then "\x7b\x7d\n"
  else String.ofList (joinEntries 0 (entryTexts o 0 entries) ++ ['\n'])

/-- The text of a mapping in which every integer can be written. -/
def dump? (o : Layout) (entries : List (Value × Value)) : Option String :=
  if (Value.map entries).isWritable then some (write o entries) else none

example : write {} [(.text "a", .list [.text "yes", .null]), (.text "b c", .map [(.text "d", .text "it's")])] =
    "a:\n- 'yes'\n- null\nb c:\n  d: it's\n" := by decide +kernel

end DocFetch.Yaml
