import DocFetch.Decimal.Shortest
import DocFetch.Failure
import DocFetch.Text.Utf8

/-! # Cells of a table

A column prefers a kind of value: a text column turns numbers into texts, and an integer column turns
numbers and texts that read as numbers into integers where nothing is lost.
-/

namespace DocFetch

inductive Cell
  | null
  | int (n : Int)
  | real (x : Binary64)
  | text (s : String)
  | blob (b : ByteArray)
deriving DecidableEq

inductive Affinity
  | text
  | integer
  | none
deriving DecidableEq, Repr

namespace Cell

def fitsInt64 (n : Int) : Bool := -(2 ^ 63) ≤ n && n < 2 ^ 63

/-- The cell that holds the value at a position of a statement: truth values are integers, and integers
have 64 bits. -/
def bind (position : Nat) : Value → Except Failure Cell
  | .null => .ok .null
  | .bool b => .ok (.int (if b then 1 else 0))
  | .int n => if fitsInt64 n then .ok (.int n) else .error (.fault .overflow)
  | .float x => .ok (if x = .nan then .null else .real x)
  | .text s => .ok (.text s)
  | .bytes b => .ok (.blob b)
  | .date d => .ok (.text d.text)
  | .moment m => .ok (.text m.text)
  | .list _ => .error (.platform .sqlUsage (notSupported position "list"))
  | .map _ => .error (.platform .sqlUsage (notSupported position "dict"))
where
  notSupported (position : Nat) (kind : String) : String :=
    "Error binding parameter " ++ toString position ++ ": type '" ++ kind ++ "' is not supported"

def toValue : Cell → Value
  | null => .null
  | int n => .int n
  | real x => .float x
  | text s => .text s
  | blob b => .bytes b

def isBlank (c : Char) : Bool := c = ' ' || (9 ≤ c.toNat && c.toNat ≤ 13)

def digitsOf (cs : List Char) : List Char × List Char := (cs.takeWhile Char.isDigit, cs.dropWhile Char.isDigit)

def natOf (ds : List Char) : Nat := ds.foldl (fun n c => 10 * n + (c.toNat - 48)) 0

/-- Digits as a number of about 64 bits after `n`, and how many digits did not fit. -/
def significandFrom (n : Nat) (ds : List Char) : Nat × Nat :=
  ds.foldl (fun (n, dropped) c =>
    if n < 1844674407370955160 then (10 * n + (c.toNat - 48), dropped) else (n, dropped + 1)) (n, 0)

/-- Sign and rest of a number. -/
def signOf : List Char → Bool × List Char
  | '-' :: rest => (true, rest)
  | '+' :: rest => (false, rest)
  | rest => (false, rest)

/-- The exponent at the end of a number, none where something else follows. -/
def exponent? : List Char → Option Int
  | [] => some 0
  | c :: rest =>
    if c = 'e' ∨ c = 'E' then
      let (negative, rest) := signOf rest
      let (ds, rest) := digitsOf rest
      if ds.isEmpty ∨ ¬rest.isEmpty then none
      else some (if negative then -(natOf ds : Int) else natOf ds)
    else none

/-- A real as an integer where it is one and well within 64 bits. -/
def settle (x : Binary64) : Cell :=
  match x.toInt? with
  | some n => if -(2 ^ 63) < n ∧ n < 2 ^ 63 - 1 then .int n else .real x
  | none => .real x

/-- The number that a text reads as, blanks around it aside. -/
def number? (s : String) : Option Cell := do
  let trimmed := ((s.toList.dropWhile isBlank).reverse.dropWhile isBlank).reverse
  let (negative, body) := signOf trimmed
  let (whole, rest) := digitsOf body
  let (fraction, rest, point) := match rest with
    | '.' :: rest => let (f, rest) := digitsOf rest; (f, rest, true)
    | rest => ([], rest, false)
  if whole.isEmpty ∧ fraction.isEmpty then none
  else
    let signed : Int := if negative then -(natOf whole : Int) else natOf whole
    if ¬point ∧ rest.isEmpty ∧ fitsInt64 signed then some (.int signed)
    else
      let e ← exponent? rest
      let (n, beyond) := significandFrom 0 whole
      let (n, unread) := significandFrom n fraction
      some (settle (Binary64.ofDecimal negative n (e + beyond - (fraction.length - unread : Nat))))

/-- The cell as a column of an affinity keeps it. -/
def keep (a : Affinity) (c : Cell) : Cell :=
  match a, c with
  | .text, .int n => .text (toString n)
  | .text, .real x => .text x.roundedText
  | .integer, .real x => settle x
  | .integer, .text s => (number? s).getD (.text s)
  | _, c => c

/-- The text of a cell that stands alone. -/
def display (c : Cell) : String := c.toValue.display

example : keep .integer (.text " 8 ") = .int 8 := by decide +kernel
example : keep .integer (.text "1e2") = .int 100 := by decide +kernel
example : keep .integer (.text "seven") = .text "seven" := by decide +kernel
example : keep .integer (.text "8.") = .int 8 := by decide +kernel

end Cell

end DocFetch
