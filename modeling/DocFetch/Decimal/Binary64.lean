import DocFetch.Text.Digits

/-! # Binary floating point with 53 bits

Numbers are kept as sign, mantissa and exponent of two, so that every operation is exact arithmetic
followed by one rounding to the nearest number, ties to the even mantissa.
-/

namespace DocFetch

/-- A finite number is `± mantissa * 2 ^ exponent` with `mantissa < 2 ^ 53`; the exponent is least
such that it is at least `-1074`. -/
inductive Binary64
  | nan
  | infinite (negative : Bool)
  | finite (negative : Bool) (mantissa : Nat) (exponent : Int)
deriving DecidableEq, Repr

namespace Binary64

def zero : Binary64 := .finite false 0 (-1074)

/-- The quotient rounded to the nearest natural number, a half to the even one. -/
def roundDiv (num den : Nat) : Nat :=
  let q := num / den
  let twice := 2 * (num % den)
  if twice < den then q else if twice > den then q + 1 else q + q % 2

/-- `num / den * 2 ^ -e` as a fraction of natural numbers. -/
def scaled (num den : Nat) (e : Int) : Nat × Nat :=
  if e < 0 then (num * 2 ^ (-e).toNat, den) else (num, den * 2 ^ e.toNat)

/-- The least exponent at which `num / den` needs at most 53 bits, but no less than `-1074`. -/
def fitExponent (num den : Nat) : Int :=
  let guess : Int := (Nat.log2 num : Int) - (Nat.log2 den : Int) - 53
  let fits (e : Int) : Bool := let (n, d) := scaled num den e; n < d * 2 ^ 53
  let e := if fits guess then guess else guess + 1
  max e (-1074)

/-- The number nearest to `± num / den`. -/
def ofRatio (negative : Bool) (num den : Nat) : Binary64 :=
  if num = 0 then .finite negative 0 (-1074)
  else
    let e := fitExponent num den
    let (n, d) := scaled num den e
    let m := roundDiv n d
    let (m, e) := if m = 2 ^ 53 then (2 ^ 52, e + 1) else (m, e)
    if e > 971 then .infinite negative else .finite negative m e

/-- The number nearest to `± digits * 10 ^ exponent`; exponents far outside the range are not
multiplied out. -/
def ofDecimal (negative : Bool) (digits : Nat) (exponent : Int) : Binary64 :=
  let size : Int := Nat.log2 digits * 31 / 100 + exponent
  if digits = 0 then .finite negative 0 (-1074)
  else if size > 400 then .infinite negative
  else if size < -400 then .finite negative 0 (-1074)
  else if exponent < 0 then ofRatio negative digits (10 ^ (-exponent).toNat)
  else ofRatio negative (digits * 10 ^ exponent.toNat) 1

def ofInt (n : Int) : Binary64 := ofRatio (n < 0) n.natAbs 1

/-- The exact value as numerator and positive denominator. -/
def toRatio? : Binary64 → Option (Int × Nat)
  | .finite negative m e =>
    let signed : Int := if negative then -m else m
    some (if e < 0 then (signed, 2 ^ (-e).toNat) else (signed * 2 ^ e.toNat, 1))
  | _ => none

/-- The integer that equals the number, if there is one. -/
def toInt? (x : Binary64) : Option Int :=
  match x.toRatio? with
  | some (n, d) => if n % d = 0 then some (n / d) else none
  | none => none

def isFinite : Binary64 → Bool
  | .finite .. => true
  | _ => false

def isZero : Binary64 → Bool
  | .finite _ 0 _ => true
  | _ => false

/-- The sum with a finite number, rounded. -/
def add (x y : Binary64) : Binary64 :=
  match x.toRatio?, y.toRatio? with
  | some (n, d), some (n', d') =>
    let s := n * d' + n' * d
    ofRatio (s < 0) s.natAbs (d * d')
  | none, some _ => x
  | some _, none => y
  | none, none => if x = y then x else .nan

/-- The product with a natural number, rounded. -/
def scale (x : Binary64) (k : Nat) : Binary64 :=
  match x with
  | .finite negative m e =>
    if e < 0 then ofRatio negative (m * k) (2 ^ (-e).toNat) else ofRatio negative (m * k * 2 ^ e.toNat) 1
  | x => x

/-- The integer part, toward zero, and the rest of a finite number. -/
def split (x : Binary64) : Int × Binary64 :=
  match x.toRatio? with
  | some (n, d) =>
    let whole := Int.tdiv n d
    let rest := n - whole * d
    (whole, ofRatio (n < 0) rest.natAbs d)
  | none => (0, x)

/-- Compares with an integer; none for what is not a number. -/
def compareInt? (x : Binary64) (k : Int) : Option Ordering :=
  match x with
  | .nan => none
  | .infinite negative => some (if negative then .lt else .gt)
  | x => x.toRatio?.map fun (n, d) => compare n (k * d)

example : ofDecimal false 15 (-1) = .finite false (3 * 2 ^ 51) (-52) := by decide +kernel
example : (ofDecimal false 100 0).toInt? = some 100 := by decide +kernel
example : ofDecimal false 5 (-324) = .finite false 1 (-1074) := by decide +kernel

end Binary64

end DocFetch
