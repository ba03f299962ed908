import DocFetch.Decimal.Binary64

/-! # Decimals

The shortest decimal that reads back as a given number: for each count of digits the two neighbours of
the number on that decimal grid are tried, and the first grid with a neighbour that rounds to the
number wins. Numbers are written positionally from `0.0001` up to below `10 ^ 16`.
-/

namespace DocFetch

/-- How decimals are written. -/
structure DecimalStyle where
  /-- The power of ten below which they are written positionally. -/
  positional : Int := 16
  /-- Whether a point follows a lone digit before an exponent. -/
  pointed : Bool := false

namespace Binary64

/-- The power of ten just above: the least `k` with `num / den < 10 ^ k`, near `guess`. -/
def decimalSize (num den : Nat) (guess : Int) : Int :=
  let below (k : Int) : Bool :=
    if k < 0 then num * 10 ^ (-k).toNat < den else num < den * 10 ^ k.toNat
  if below (guess - 1) then guess - 1
  else if below guess then guess
  else if below (guess + 1) then guess + 1
  else guess + 2

/-- The digits, as a number, and the power of ten of a decimal with `count` digits that reads back as
the positive number `x = num / den`; of two the nearer. -/
private def onGrid (x : Binary64) (num den : Nat) (size : Int) (count : Nat) : Option (Nat × Int) :=
  let e := size - count
  let (n, d) := if e < 0 then (num * 10 ^ (-e).toNat, den) else (num, den * 10 ^ e.toNat)
  let low := n / d
  let rem := n % d
  let readsBack (m : Nat) : Bool := ofDecimal false m e = x
  let first := if 2 * rem < d || (2 * rem = d && low % 2 = 0) then low else low + 1
  let second := if first = low then low + 1 else low
  if readsBack first then some (first, e)
  else if readsBack second then some (second, e)
  else none

private def shortestFrom (x : Binary64) (num den : Nat) (size : Int) : Nat → Nat → Nat × Int
  | 0, count => (onGrid x num den size count).getD (0, 0)
  | fuel + 1, count =>
    match onGrid x num den size count with
    | some r => r
    | none => shortestFrom x num den size fuel (count + 1)

/-- Numerator, denominator and decimal size of `mantissa * 2 ^ exponent`. -/
def measure (mantissa : Nat) (exponent : Int) : Nat × Nat × Int :=
  let (num, den) :=
    if exponent < 0 then (mantissa, 2 ^ (-exponent).toNat) else (mantissa * 2 ^ exponent.toNat, 1)
  (num, den, decimalSize num den (((Nat.log2 mantissa : Int) + exponent) * 30103 / 100000 + 1))

/-- Digits and power of ten of the shortest decimal of `mantissa * 2 ^ exponent`. -/
def shortest (mantissa : Nat) (exponent : Int) : Nat × Int :=
  if mantissa = 0 then (0, 0)
  else
    let (num, den, size) := measure mantissa exponent
    shortestFrom (.finite false mantissa exponent) num den size 17 1

private def dropZeros (fuel n : Nat) (e : Int) : Nat × Int :=
  match fuel with
  | 0 => (n, e)
  | fuel + 1 => if n ≠ 0 ∧ n % 10 = 0 then dropZeros fuel (n / 10) (e + 1) else (n, e)

/-- Writes `digits * 10 ^ e`: positionally with at least one place, or with an exponent of at least
two digits. -/
def writeDecimal (style : DecimalStyle) (n : Nat) (e : Int) : List Char :=
  let (n, e) := dropZeros 20 n e
  let ds := Nat.toDigits 10 n
  let point : Int := ds.length + e
  if n = 0 then ['0', '.', '0']
  else if -4 < point ∧ point ≤ style.positional then
    if point ≤ 0 then '0' :: '.' :: (List.replicate (-point).toNat '0' ++ ds)
    else if e ≥ 0 then ds ++ List.replicate e.toNat '0' ++ ['.', '0']
    else ds.take point.toNat ++ '.' :: ds.drop point.toNat
  else
    let fraction := if ds.length > 1 then '.' :: ds.drop 1 else if style.pointed then ['.', '0'] else []
    let power := point - 1
    let shown := Nat.toDigits 10 power.natAbs
    let shown := if shown.length < 2 then '0' :: shown else shown
    ds.take 1 ++ fraction ++ 'e' :: (if power < 0 then '-' else '+') :: shown

/-- The text of a number. -/
def text : Binary64 → String
  | .nan => "nan"
  | .infinite negative => if negative then "-inf" else "inf"
  | .finite negative m e =>
    let (n, p) := shortest m e
    let body := writeDecimal {} n p
    String.ofList (if negative then '-' :: body else body)

example : (ofDecimal false 1 (-1)).text = "0.1" := by decide +kernel
example : (ofDecimal true 0 0).text = "-0.0" := by decide +kernel
example : (ofDecimal false 1 16).text = "1e+16" := by decide +kernel
example : (ofDecimal false 5 (-324)).text = "5e-324" := by decide +kernel
example : (ofDecimal false 123456789012345678 0).text = "1.2345678901234568e+17" := by decide +kernel

/-! ## Decimals of a fixed precision

A number rounded to a count of significant digits, a half away from zero, with zeros at its end dropped.
-/

/-- Digits and power of ten of `mantissa * 2 ^ exponent` rounded to `count` digits. -/
def significant (count mantissa : Nat) (exponent : Int) : Nat × Int :=
  if mantissa = 0 then (0, 0)
  else
    let (num, den, size) := measure mantissa exponent
    let e := size - count
    let (n, d) := if e < 0 then (num * 10 ^ (-e).toNat, den) else (num, den * 10 ^ e.toNat)
    ((2 * n + d) / (2 * d), e)

/-- The text of a number with 15 significant digits at most; zero has no sign. -/
def roundedText : Binary64 → String
  | .nan => ""
  | .infinite negative => if negative then "-Inf" else "Inf"
  | .finite negative m e =>
    let (n, p) := significant 15 m e
    let body := writeDecimal { positional := 15, pointed := true } n p
    String.ofList (if negative ∧ m ≠ 0 then '-' :: body else body)

example : (ofDecimal false 1 16).roundedText = "1.0e+16" := by decide +kernel
example : (ofDecimal true 123456789012345678 (-17)).roundedText = "-1.23456789012346" := by decide +kernel

end Binary64

end DocFetch
