import DocFetch.Decimal.Binary64
import DocFetch.Failure

/-! # Durations

A duration counts microseconds. Its text gives days apart from the time of day.
-/

namespace DocFetch

structure Duration where
  microseconds : Int
deriving DecidableEq, Repr

namespace Duration

def second : Int := 1000000

def day : Int := 86400 * second

/-- A sum of amounts: whole microseconds and the fractions that are rounded at the end. -/
structure Tally where
  whole : Int := 0
  fraction : Binary64 := .zero

/-- Adds an amount of units of `unit` microseconds; only the fraction of a float is rounded. -/
def Tally.add (t : Tally) (unit : Nat) (amount : Value) : Except Failure Tally :=
  match amount with
  | .int n => .ok { t with whole := t.whole + n * unit }
  | .bool b => .ok { t with whole := t.whole + (if b then unit else 0) }
  | .float .nan => .error (.fault .badValue)
  | .float (.infinite _) => .error (.fault .overflow)
  | .float x =>
    let (whole, rest) := x.split
    let (more, left) := (rest.scale unit).split
    .ok ⟨t.whole + whole * unit + more, t.fraction.add left⟩
  | _ => .error (.fault .wrongType)

/-- The nearest count of microseconds; of two the even one. -/
def Tally.round (t : Tally) : Int :=
  match t.fraction.toRatio? with
  | none => t.whole
  | some (n, d) =>
    let num := t.whole * d + n
    let low := Int.fdiv num d
    let twice := 2 * (num - low * d)
    if twice < d then low else if twice > d then low + 1 else low + low % 2

/-- A duration of less than a billion days either way. -/
def ofTally (t : Tally) : Except Failure Duration :=
  let n := t.round
  let days := Int.fdiv n day
  if days.natAbs ≤ 999999999 then .ok ⟨n⟩ else .error (.fault .overflow)

def text (d : Duration) : String :=
  let days := Int.fdiv d.microseconds day
  let rest := (d.microseconds - days * day).toNat
  let seconds := rest / 1000000
  let micro := rest % 1000000
  let two (n : Nat) : String := if n < 10 then "0" ++ toString n else toString n
  let clock := toString (seconds / 3600) ++ ":" ++ two (seconds / 60 % 60) ++ ":" ++ two (seconds % 60)
  let fraction := if micro = 0 then "" else "." ++ String.ofList (List.replicate (6 - (toString micro).length) '0') ++ toString micro
  let before := if days = 0 then "" else
    toString days ++ (if days.natAbs = 1 then " day, " else " days, ")
  before ++ clock ++ fraction

example : text ⟨-1000000⟩ = "-1 day, 23:59:59" := by decide +kernel
example : text ⟨90061000001⟩ = "1 day, 1:01:01.000001" := by decide +kernel

end Duration

end DocFetch
