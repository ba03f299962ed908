/-! # Integers in configurations

A text is an integer when, blanks around it aside, it has a sign at most, digits with single low lines
between them, and perhaps a decimal point with nothing but zeros behind it.
-/

namespace DocFetch.Text

/-- The blanks that may stand around a number. -/
def isNumberBlank (c : Char) : Bool :=
  (9 ≤ c.toNat && c.toNat ≤ 13) || c = ' ' || c.toNat = 0x85 || c.toNat = 0xa0 || c.toNat = 0x1680 ||
    (0x2000 ≤ c.toNat && c.toNat ≤ 0x200a) || c.toNat = 0x2028 || c.toNat = 0x2029 ||
    c.toNat = 0x202f || c.toNat = 0x205f || c.toNat = 0x3000

def digitValue? (c : Char) : Option Nat := if c.isDigit then some (c.toNat - 48) else none

/-- Digits with single low lines between them; `gap` says that the last character was none. -/
def readDigits (acc : Nat) (gap : Bool) : List Char → Option Nat
  | [] => if gap then none else some acc
  | c :: rest =>
    if c = '_' then (if gap then none else readDigits acc true rest)
    else
      match digitValue? c with
      | some d => readDigits (10 * acc + d) false rest
      | none => none

def readInteger? (s : String) : Option Int :=
  let cs := ((s.toList.dropWhile isNumberBlank).reverse.dropWhile isNumberBlank).reverse
  let (negative, body) := match cs with
    | '-' :: rest => (true, rest)
    | '+' :: rest => (false, rest)
    | rest => (false, rest)
  let whole := body.takeWhile (· ≠ '.')
  let fraction := (body.dropWhile (· ≠ '.')).drop 1
  if fraction.all (· = '0') then
    (readDigits 0 true whole).map fun n => if negative then -(n : Int) else n
  else none

/-- A number in base ten, if it has at most 4300 digits. -/
def writeInteger? (n : Int) : Option String := if n.natAbs < 10 ^ 4300 then some (toString n) else none

example : readInteger? " 1_0.00 " = some 10 := by decide +kernel
example : readInteger? "1__0" = none := by decide +kernel

end DocFetch.Text
