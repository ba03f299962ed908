import DocFetch.Failure
import DocFetch.Text.Base64
import DocFetch.Text.Digits

/-! # Plain scalars

A scalar without quotes is a truth value, a number, a date, nothing, or a text, by its form alone.
-/

namespace DocFetch.Yaml

/-- What a plain scalar stands for. Two marks have a meaning as keys only. -/
inductive ScalarKind
  | null
  | bool
  | int
  | float
  | timestamp
  | binary
  | merge
  | equals
  | text
deriving DecidableEq, Repr

def trueWords : List String := ["yes", "true", "on"]

def falseWords : List String := ["no", "false", "off"]

/-- A word in small letters, with a capital, or in capitals. -/
def spellings (word : String) : List String := [word, word.capitalize, word.map Char.toUpper]

def isDigitOrGap (c : Char) : Bool := c.isDigit || c = '_'

/-- The text after a sign that may be there. -/
def unsigned : List Char → List Char
  | '-' :: rest => rest
  | '+' :: rest => rest
  | cs => cs

/-- The rest after a digit and then digits and low lines. -/
def afterDigits? : List Char → Option (List Char)
  | c :: rest => if c.isDigit then some (rest.dropWhile isDigitOrGap) else none
  | [] => none

def isExponent : List Char → Bool
  | [] => true
  | e :: sign :: rest =>
    (e = 'e' || e = 'E') && (sign = '-' || sign = '+') && !rest.isEmpty && rest.all Char.isDigit
  | _ => false

/-- The rest after one or more groups of sixty, each a colon with one or two digits. -/
def afterSixties : List Char → List Char
  | ':' :: a :: b :: rest =>
    if ('0' ≤ a && a ≤ '5') && b.isDigit then afterSixties rest
    else if a.isDigit then afterSixties (b :: rest)
    else ':' :: a :: b :: rest
  | [':', a] => if a.isDigit then [] else [':', a]
  | cs => cs

def isFloat (cs : List Char) : Bool :=
  let body := unsigned cs
  let positional := match afterDigits? body with
    | some ('.' :: rest) => isExponent (rest.dropWhile isDigitOrGap)
    | some rest =>
      let after := afterSixties rest
      after.length < rest.length && after.head? = some '.' && (after.drop 1).all isDigitOrGap
    | none => false
  let bare := match cs with
    | '.' :: rest => (afterDigits? rest).any isExponent
    | _ => false
  positional || bare || (spellings "inf").any (fun w => body = '.' :: w.toList) ||
    [".nan", ".NaN", ".NAN"].any (fun w => cs = w.toList)

def isHexOrGap (c : Char) : Bool := (Text.hexValue? c).isSome || c = '_'

def isInt (cs : List Char) : Bool :=
  match unsigned cs with
  | ['0'] => true
  | '0' :: 'b' :: rest => !rest.isEmpty && rest.all fun c => c = '0' || c = '1' || c = '_'
  | '0' :: 'x' :: rest => !rest.isEmpty && rest.all isHexOrGap
  | '0' :: rest => rest.all fun c => ('0' ≤ c && c ≤ '7') || c = '_'
  | c :: rest =>
    c.isDigit && (afterSixties (rest.dropWhile isDigitOrGap)).isEmpty
  | [] => false

/-- A moment with the zone as it is written. -/
structure Stamp where
  date : Date
  clock : Option Clock
  offset : Option Int

/-- One or two digits, and the rest. -/
def shortNumber? : List Char → Option (Nat × List Char)
  | a :: b :: rest =>
    if !a.isDigit then none
    else if b.isDigit then some (10 * (a.toNat - 48) + (b.toNat - 48), rest)
    else some (a.toNat - 48, b :: rest)
  | [a] => if a.isDigit then some (a.toNat - 48, []) else none
  | [] => none

/-- Exactly `count` digits, and the rest. -/
def number? (count : Nat) (cs : List Char) : Option (Nat × List Char) :=
  let ds := cs.take count
  if ds.length = count ∧ ds.all Char.isDigit then
    some (ds.foldl (fun n c => 10 * n + (c.toNat - 48)) 0, cs.drop count)
  else none

def symbol? (c : Char) : List Char → Option (List Char)
  | d :: rest => if c = d then some rest else none
  | [] => none

def isTab (c : Char) : Bool := c = ' ' || c = '\t'

/-- A zone at the end: a letter for universal time, or sign, hours and perhaps minutes. -/
def zone? (cs : List Char) : Option (Option Int) :=
  match cs.dropWhile isTab with
  | [] => if cs.isEmpty then some none else none
  | ['Z'] => some (some 0)
  | sign :: rest => do
    if sign ≠ '-' ∧ sign ≠ '+' then none
    let (h, rest) ← shortNumber? rest
    let (m, rest) ← match rest with
      | ':' :: rest => number? 2 rest
      | rest => some (0, rest)
    let n : Int := (h * 60 + m : Nat) * 60000000
    if rest.isEmpty then some (some (if sign = '-' then -n else n)) else none

/-- Six places of a second; what is written beyond them is dropped. -/
def micro (ds : List Char) : Nat :=
  ((ds.take 6).foldl (fun n c => 10 * n + (c.toNat - 48)) 0) * 10 ^ (6 - (ds.take 6).length)

def clock? (cs : List Char) : Option (Clock × Option Int) := do
  let (hour, cs) ← shortNumber? cs
  let (minute, cs) ← number? 2 (← symbol? ':' cs)
  let (second, cs) ← number? 2 (← symbol? ':' cs)
  let (ds, cs) := match cs with
    | '.' :: rest => (rest.takeWhile Char.isDigit, rest.dropWhile Char.isDigit)
    | rest => ([], rest)
  return (⟨hour, minute, second, micro ds⟩, ← zone? cs)

/-- A date in full digits, or a date and a time of day. -/
def stamp? (cs : List Char) : Option Stamp := do
  let (year, rest) ← number? 4 cs
  let (month, rest) ← shortNumber? (← symbol? '-' rest)
  let (day, rest) ← shortNumber? (← symbol? '-' rest)
  match rest with
  | [] => if cs.length = 10 then some ⟨⟨year, month, day⟩, none, none⟩ else none
  | c :: rest =>
    let (clock, offset) ←
      if c = 'T' ∨ c = 't' then clock? rest
      else if isTab c then clock? (rest.dropWhile isTab)
      else none
    return ⟨⟨year, month, day⟩, some clock, offset⟩

def kindOf (s : String) : ScalarKind :=
  let cs := s.toList
  if ((trueWords ++ falseWords).flatMap spellings).contains s then .bool
  else if isFloat cs then .float
  else if isInt cs then .int
  else if s = "<<" then .merge
  else if s = "" ∨ s = "~" ∨ (spellings "null").contains s then .null
  else if (stamp? cs).isSome then .timestamp
  else if s = "=" then .equals
  else .text

def badNumber {α : Type} : Except Failure α := .error (.fault .badValue)

/-- Digits of a base up to sixteen, at least one. -/
def digitsValue (base : Nat) (cs : List Char) : Except Failure Nat :=
  if cs.isEmpty then badNumber
  else
    match cs.mapM fun c => (Text.hexValue? c).filter (· < base) with
    | some ds => .ok (ds.foldl (fun n d => base * n + d) 0)
    | none => badNumber

/-- At most 4300 digits of base ten. -/
def decimalDigits (cs : List Char) : Except Failure Nat :=
  if cs.length ≤ 4300 then digitsValue 10 cs else badNumber

/-- The pieces between colons as digits of base sixty. -/
def sixties (cs : List Char) : List (List Char) := cs.splitOn ':'

def intValue (s : String) : Except Failure Int := do
  let cs := s.toList.filter (· ≠ '_')
  let body := unsigned cs
  let n ← match body with
    | ['0'] => pure 0
    | '0' :: 'b' :: rest => digitsValue 2 rest
    | '0' :: 'x' :: rest => digitsValue 16 rest
    | '0' :: rest => digitsValue 8 rest
    | body => (sixties body).foldlM (fun n ds => do return 60 * n + (← decimalDigits ds)) 0
  return if cs.head? = some '-' then -(n : Int) else n

/-- The number that a decimal text stands for. -/
def decimalValue (negative : Bool) (cs : List Char) : Except Failure Binary64 := do
  let mantissa := cs.takeWhile fun c => c ≠ 'e' ∧ c ≠ 'E'
  let power := (cs.drop mantissa.length).drop 1
  let whole := mantissa.takeWhile (· ≠ '.')
  let fraction := (mantissa.drop whole.length).drop 1
  let exponent ← if power.isEmpty then pure 0 else digitsValue 10 (unsigned power)
  let exponent : Int := if power.head? = some '-' then -(exponent : Int) else exponent
  return Binary64.ofDecimal negative (← digitsValue 10 (whole ++ fraction)) (exponent - fraction.length)

def floatValue (s : String) : Except Failure Binary64 := do
  let cs := s.toList.filter (· ≠ '_')
  let negative := cs.head? = some '-'
  let body := unsigned cs
  match body with
  | '.' :: c :: _ =>
    if c = 'i' ∨ c = 'I' then return .infinite negative
    else if c = 'n' ∨ c = 'N' then return .nan
    else decimalValue negative body
  | _ =>
    match sixties body with
    | [_] => decimalValue negative body
    | parts =>
      let (total, _) ← parts.reverse.foldlM (fun (x, base) p => do
        return (Binary64.add x ((← decimalValue false p).scale base), base * 60)) (Binary64.zero, 1)
      return match total with
        | .finite _ m e => .finite negative m e
        | x => x

def stampValue (s : String) : Except Failure Value :=
  match stamp? s.toList with
  | none => .error (.fault .noSuchMember)
  | some st =>
    if !st.date.isValid then badNumber
    else
      match st.clock with
      | none => .ok (.date st.date)
      | some clock =>
        if clock.isValid ∧ st.offset.all (fun n => n.natAbs < 86400000000) then
          .ok (.moment ⟨st.date, clock, st.offset⟩)
        else badNumber

/-- The bytes that a text stands for, where characters that stand for nothing are passed over. -/
def bytesValue? (s : String) : Option ByteArray :=
  let cs := s.toList
  if cs.any fun c => c.toNat ≥ 128 then none
  else Text.decodeBase64? (String.ofList (cs.filter fun c => c = '=' || (Text.base64Value? c).isSome))

example : kindOf "No" = .bool ∧ kindOf "1_0.5e+3" = .float ∧ kindOf "1:30" = .int := by decide +kernel
example : kindOf "2024-1-2" = .text ∧ kindOf "2024-01-02" = .timestamp := by decide +kernel
example : kindOf "08" = .text ∧ kindOf "1e5" = .text ∧ kindOf "." = .text := by decide +kernel

end DocFetch.Yaml
