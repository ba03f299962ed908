/-! # Digits

Decimal digits of all scripts and hexadecimal digits. Powers of their bases, and the equality of the bytes that they
write, are those of the core library in every module, whatever else it imports.
-/

attribute [instance (high)] instPowNat ByteArray.instDecidableEq
attribute [default_instance (high + 1)] instPowNat

namespace DocFetch.Text

/-! ## Decimal digits

The digits of a script are ten code points in a row from its zero on.
-/

/-- The zeros of all scripts, in order. -/
def digitZeros : List Nat :=
  [48, 1632, 1776, 1984, 2406, 2534, 2662, 2790, 2918, 3046, 3174, 3302, 3430, 3558, 3664,
   3792, 3872, 4160, 4240, 6112, 6160, 6470, 6608, 6784, 6800, 6992, 7088, 7232, 7248, 42528,
   43216, 43264, 43472, 43504, 43600, 44016, 65296, 66720, 68912, 69734, 69872, 69942, 70096,
   70384, 70736, 70864, 71248, 71360, 71472, 71904, 72016, 72784, 73040, 73120, 92768, 92864,
   93008, 120782, 120792, 120802, 120812, 120822, 123200, 123632, 125264, 130032]

def digitIn? : List Nat → Nat → Option Nat
  | [], _ => none
  | start :: rest, n =>
    if n < start then none else if n < start + 10 then some (n - start) else digitIn? rest n

def isDecimalDigit (c : Char) : Bool := (digitIn? digitZeros c.toNat).isSome

/-- The value of a digit; zero for any other character. -/
def decimalDigit (c : Char) : Nat := (digitIn? digitZeros c.toNat).getD 0

example : decimalDigit '٣' = 3 := by decide +kernel

/-! ## Hexadecimal digits -/

def hexDigit (n : Nat) : Char :=
  if n < 10 then Char.ofNat (48 + n) else Char.ofNat (87 + n)

/-- The last `width` hexadecimal digits of `n`, in lower case. -/
def hexFixed (width n : Nat) : List Char :=
  (List.range width).reverse.map fun i => hexDigit (n / 16 ^ i % 16)

def hexValue? (c : Char) : Option Nat :=
  if '0' ≤ c ∧ c ≤ '9' then some (c.toNat - 48)
  else if 'a' ≤ c ∧ c ≤ 'f' then some (c.toNat - 87)
  else if 'A' ≤ c ∧ c ≤ 'F' then some (c.toNat - 55)
  else none

/-- The number written by hexadecimal digits. -/
def hexNumber? (cs : List Char) : Option Nat :=
  cs.foldl (fun acc c => do return 16 * (← acc) + (← hexValue? c)) (some 0)

def hexOfBytes (b : ByteArray) : String :=
  String.ofList (b.data.toList.flatMap fun x => hexFixed 2 x.toNat)

def bytesOfHexDigits : List Char → Option (List UInt8)
  | [] => some []
  | a :: b :: rest => do
    let high ← hexValue? a
    let low ← hexValue? b
    return UInt8.ofNat (16 * high + low) :: (← bytesOfHexDigits rest)
  | [_] => none

def bytesOfHex? (s : String) : Option ByteArray :=
  (bytesOfHexDigits s.toList).map fun l => ⟨l.toArray⟩

example : hexOfBytes ⟨#[0, 255, 0x1f]⟩ = "00ff1f" := by decide +kernel
example : bytesOfHex? "00fF" = some ⟨#[0, 255]⟩ := by decide +kernel

end DocFetch.Text
