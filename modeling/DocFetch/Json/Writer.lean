import DocFetch.Text.Digits
import DocFetch.Value.Display

/-! # Writing JSON

One line, a blank after commas and colons, characters outside ASCII as they are; or one line per item and
member, two blanks further in at each level.
-/

namespace DocFetch.Json

def escapeChar (c : Char) : List Char :=
  if c = '"' then ['\\', '"']
  else if c = '\\' then ['\\', '\\']
  else if c = '\n' then ['\\', 'n']
  else if c = '\r' then ['\\', 'r']
  else if c = '\t' then ['\\', 't']
  else if c.toNat = 8 then ['\\', 'b']
  else if c.toNat = 12 then ['\\', 'f']
  else if c.toNat < 32 then '\\' :: 'u' :: Text.hexFixed 4 c.toNat
  else [c]

def stringChars (s : String) : List Char := '"' :: s.toList.flatMap escapeChar ++ ['"']

def writeString (s : String) : String := String.ofList (stringChars s)

def writeFloat : Binary64 → String
  | .nan => "NaN"
  | .infinite negative => if negative then "-Infinity" else "Infinity"
  | x => x.text

/-- The key of a member: texts as they are, other scalars by their JSON text. -/
def keyText : Value → String
  | .text s => s
  | .null => "null"
  | .bool b => if b then "true" else "false"
  | .int n => toString n
  | .float x => writeFloat x
  | v => v.display

mutual

def write : Value → String
  | .null => "null"
  | .bool b => if b then "true" else "false"
  | .int n => toString n
  | .float x => writeFloat x
  | .text s => writeString s
  | .bytes b => writeString (Text.quotedBytes b)
  | .date d => writeString d.text
  | .moment m => writeString (m.textWith "T")
  | .list items => "[" ++ ", ".intercalate (writeItems items) ++ "]"
  | .map entries => "\x7b" ++ ", ".intercalate (writeMembers entries) ++ "\x7d"

def writeItems : List Value → List String
  | [] => []
  | v :: rest => write v :: writeItems rest

def writeMembers : List (Value × Value) → List String
  | [] => []
  | (k, v) :: rest => (writeString (keyText k) ++ ": " ++ write v) :: writeMembers rest

end

/-- A new line at a level. -/
def margin (level : Nat) : String := String.ofList ('\n' :: List.replicate (2 * level) ' ')

def scalarPiece : Value → Option String
  | .int n => Text.writeInteger? n
  | v => some (write v)

def keyPiece : Value → Option String
  | .int n => (Text.writeInteger? n).map writeString
  | k => some (writeString (keyText k))

mutual

/-- A value in the pieces in which it is written, one line per item and member. A piece is missing where an integer
cannot be written. -/
def pieces (level : Nat) : Value → List (Option String)
  | .list [] => [some "[]"]
  | .list (v :: rest) => itemPieces (level + 1) "[" (v :: rest) ++ [some (margin level ++ "]")]
  | .map [] => [some "\x7b\x7d"]
  | .map (e :: rest) => memberPieces (level + 1) "\x7b" (e :: rest) ++ [some (margin level ++ "\x7d")]
  | v => [scalarPiece v]

/-- Items after what stands `before` the first of them. An item of one piece comes out together with it. -/
def itemPieces (level : Nat) (before : String) : List Value → List (Option String)
  | [] => []
  | v :: rest =>
    let opening := before ++ margin level
    (match pieces level v with
      | [piece] => [piece.map (opening ++ ·)]
      | ps => some opening :: ps) ++ itemPieces level "," rest

def memberPieces (level : Nat) (before : String) : List (Value × Value) → List (Option String)
  | [] => []
  | (k, v) :: rest =>
    some (before ++ margin level) :: (keyPiece k).map (· ++ ": ") :: pieces level v ++ memberPieces level "," rest

end

/-- What comes out of pieces up to the first one that is missing. -/
def joinPieces : List (Option String) → String
  | some s :: rest => s ++ joinPieces rest
  | _ => ""

/-- A character outside printable ASCII by its UTF-16 units. -/
def escapeUnits (c : Char) : List Char :=
  if ' ' ≤ c ∧ c ≤ '~' then [c]
  else if c.toNat < 0x10000 then '\\' :: 'u' :: Text.hexFixed 4 c.toNat
  else
    let n := c.toNat - 0x10000
    '\\' :: 'u' :: Text.hexFixed 4 (0xd800 + n / 0x400) ++
      '\\' :: 'u' :: Text.hexFixed 4 (0xdc00 + n % 0x400)

/-- JSON that is ASCII alone: what is outside it can only stand inside of texts. -/
def writeAscii (v : Value) : String := String.ofList ((write v).toList.flatMap escapeUnits)

example : writeAscii (.text "é😀") = "\"\\u00e9\\ud83d\\ude00\"" := by decide +kernel
example : write (.object [("a", .list [.int 1, .text "\n\""])]) =
    "\x7b\"a\": [1, \"\\n\\\"\"]\x7d" := by decide +kernel
example : joinPieces (pieces 0 (.object [("a", .list [.int 1, .null]), ("b", .map [])])) =
    "\x7b\n  \"a\": [\n    1,\n    null\n  ],\n  \"b\": \x7b\x7d\n\x7d" := by decide +kernel
example : joinPieces (pieces 0 (.object [("a", .list [.null, .int (10 ^ 4300)])])) =
    "\x7b\n  \"a\": [\n    null" := by decide +kernel

end DocFetch.Json
