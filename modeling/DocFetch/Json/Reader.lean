import DocFetch.Text.Digits
import DocFetch.Value.Display

/-! # Reading JSON

Integers of any size stay exact and apart from floats; of a repeated member the last value counts, at
the place of the first. `NaN` and the infinities are read as numbers.
-/

namespace DocFetch.Json

def isBlank (c : Char) : Bool := c = ' ' || c = '\t' || c = '\n' || c = '\r'

def skipBlanks (cs : List Char) : List Char := cs.dropWhile isBlank

def isHighSurrogate (n : Nat) : Bool := 0xD800 ≤ n && n < 0xDC00

def isLowSurrogate (n : Nat) : Bool := 0xDC00 ≤ n && n < 0xE000

def replacement : Char := '\ufffd'

/-- The characters read so far after one more code unit; `high` is the first half of a pair that waits
for its second half, and a half that stays alone is read as the replacement character. -/
def pushUnit (acc : List Char) (high : Option Nat) (n : Nat) : List Char × Option Nat :=
  match high with
  | some h =>
    if isLowSurrogate n then (Char.ofNat (0x10000 + (h - 0xD800) * 0x400 + (n - 0xDC00)) :: acc, none)
    else if isHighSurrogate n then (replacement :: acc, some n)
    else (Char.ofNat n :: replacement :: acc, none)
  | none =>
    if isHighSurrogate n then (acc, some n)
    else if isLowSurrogate n then (replacement :: acc, none)
    else (Char.ofNat n :: acc, none)

def settle (acc : List Char) (high : Option Nat) : List Char :=
  if high.isSome then replacement :: acc else acc

def simpleEscape? (c : Char) : Option Char :=
  if c = '"' ∨ c = '\\' ∨ c = '/' then some c
  else if c = 'n' then some '\n'
  else if c = 'r' then some '\r'
  else if c = 't' then some '\t'
  else if c = 'b' then some '\x08'
  else if c = 'f' then some '\x0c'
  else none

/-- Reads on after the opening quote; `acc` holds what was read, last character first. -/
def readString (acc : List Char) (high : Option Nat) : List Char → Option (String × List Char)
  | [] => none
  | '\\' :: 'u' :: a :: b :: c :: d :: rest =>
    match Text.hexNumber? [a, b, c, d] with
    | some n => readString (pushUnit acc high n).1 (pushUnit acc high n).2 rest
    | none => none
  | '\\' :: c :: rest =>
    match simpleEscape? c with
    | some c => readString (c :: settle acc high) none rest
    | none => none
  | c :: rest =>
    if c = '"' then some (String.ofList (settle acc high).reverse, rest)
    else if c.toNat < 32 then none
    else if c = '\\' then none
    else readString (c :: settle acc high) none rest

def digitsOf (cs : List Char) : List Char := cs.takeWhile Char.isDigit

def naturalOf (cs : List Char) : Nat := cs.foldl (fun n c => 10 * n + (c.toNat - 48)) 0

/-- A dot with digits after it. -/
def readFraction : List Char → List Char × List Char
  | '.' :: rest =>
    let ds := digitsOf rest
    if ds.isEmpty then ([], '.' :: rest) else (ds, rest.drop ds.length)
  | cs => ([], cs)

/-- The power of ten after `e`, if digits follow. -/
def readPower (cs : List Char) : Option Int × List Char :=
  match cs with
  | c :: rest =>
    if c = 'e' ∨ c = 'E' then
      let (negative, body) := match rest with
        | '-' :: r => (true, r)
        | '+' :: r => (false, r)
        | r => (false, r)
      let ds := digitsOf body
      if ds.isEmpty then (none, cs)
      else
        let n : Int := naturalOf ds
        (some (if negative then -n else n), body.drop ds.length)
    else (none, cs)
  | [] => (none, [])

/-- Digits and what may follow them; a leading zero stands alone. -/
def readNumber (negative : Bool) (cs : List Char) : Option (Value × List Char) :=
  let whole := if cs.head? = some '0' then ['0'] else digitsOf cs
  if whole.isEmpty then none
  else
    let (fraction, rest) := readFraction (cs.drop whole.length)
    let (power, rest) := readPower rest
    if fraction.isEmpty && power.isNone then
      let n : Int := naturalOf whole
      some (.int (if negative then -n else n), rest)
    else
      let value := Binary64.ofDecimal negative (naturalOf (whole ++ fraction))
        (power.getD 0 - fraction.length)
      some (.float value, rest)

def stripWord? (word : String) (cs : List Char) : Option (List Char) :=
  let w := word.toList
  if w.isPrefixOf cs then some (cs.drop w.length) else none

def readScalar (cs : List Char) : Option (Value × List Char) :=
  match cs with
  | '-' :: rest =>
    match stripWord? "Infinity" rest with
    | some rest => some (.float (.infinite true), rest)
    | none => readNumber true rest
  | _ =>
    if let some rest := stripWord? "null" cs then some (.null, rest)
    else if let some rest := stripWord? "true" cs then some (.bool true, rest)
    else if let some rest := stripWord? "false" cs then some (.bool false, rest)
    else if let some rest := stripWord? "NaN" cs then some (.float .nan, rest)
    else if let some rest := stripWord? "Infinity" cs then some (.float (.infinite false), rest)
    else readNumber false cs

mutual

/-- Reads one value at the start; `fuel` bounds the nesting and the number of members. -/
def readValue : Nat → List Char → Option (Value × List Char)
  | 0, _ => none
  | fuel + 1, cs =>
    match cs with
    | '"' :: rest => (readString [] none rest).map fun (s, rest) => (.text s, rest)
    | '[' :: rest =>
      match skipBlanks rest with
      | ']' :: rest => some (.list [], rest)
      | rest => (readItems fuel [] rest).map fun (items, rest) => (.list items, rest)
    | '\x7b' :: rest =>
      match skipBlanks rest with
      | '\x7d' :: rest => some (.map [], rest)
      | rest => (readMembers fuel [] rest).map fun (members, rest) => (.map members, rest)
    | _ => readScalar cs

def readItems : Nat → List Value → List Char → Option (List Value × List Char)
  | 0, _, _ => none
  | fuel + 1, acc, cs =>
    match readValue fuel cs with
    | none => none
    | some (v, rest) =>
      match skipBlanks rest with
      | ',' :: rest => readItems fuel (v :: acc) (skipBlanks rest)
      | ']' :: rest => some ((v :: acc).reverse, rest)
      | _ => none

def readMembers : Nat → List (Value × Value) → List Char → Option (List (Value × Value) × List Char)
  | 0, _, _ => none
  | fuel + 1, acc, cs =>
    match cs with
    | '"' :: rest =>
      match readString [] none rest with
      | none => none
      | some (k, rest) =>
        match skipBlanks rest with
        | ':' :: rest =>
          match readValue fuel (skipBlanks rest) with
          | none => none
          | some (v, rest) =>
            let acc := Value.putEntry (.text k) v acc
            match skipBlanks rest with
            | ',' :: rest => readMembers fuel acc (skipBlanks rest)
            | '\x7d' :: rest => some (acc, rest)
            | _ => none
        | _ => none
    | _ => none

end

/-- Reads a whole text as one value with blanks around it. -/
def read? (s : String) : Option Value :=
  let cs := s.toList
  match readValue (cs.length + 1) (skipBlanks cs) with
  | some (v, rest) => if (skipBlanks rest).isEmpty then some v else none
  | none => none

example : (read? " [1, -2.5e1, \"\\u00e9\\ud83d\\ude00\"] ").map Value.display =
    some "[1, -25.0, 'é😀']" := by decide +kernel
example : (read? "[1,]").isNone = true := by decide +kernel

end DocFetch.Json
