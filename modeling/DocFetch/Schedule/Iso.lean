import DocFetch.Calendar
import DocFetch.Text.Digits

/-! # Moments in ISO 8601

A date in the extended or basic form, or by week and weekday; then perhaps any one character, a time of
day down to microseconds, and an offset.
-/

namespace DocFetch.Iso

/-- The number written by exactly `count` digits at the start, and the rest. -/
def digits? (count : Nat) (cs : List Char) : Option (Nat × List Char) :=
  let ds := cs.take count
  if ds.length = count ∧ ds.all Char.isDigit then
    some (ds.foldl (fun n c => 10 * n + (c.toNat - 48)) 0, cs.drop count)
  else none

/-- How many characters the date takes. -/
def dateLength? (cs : List Char) : Option Nat :=
  let n := cs.length
  if n < 7 then none
  else if n = 7 then some 7
  else if cs[4]? = some '-' then
    if cs[5]? = some 'W' then
      if cs[8]? = some '-' then
        if n = 9 then none
        else if (cs[10]?).any Char.isDigit then some 8
        else some 10
      else some 8
    else some 10
  else if cs[4]? = some 'W' then
    let run := 7 + ((cs.drop 7).takeWhile Char.isDigit).length
    if run < 9 then some run else if run % 2 = 0 then some 7 else some 8
  else some 8

/-- The day of a week of a year numbered by weeks. -/
def weekDate? (year week weekday : Nat) : Option Date :=
  let first := (Date.mk year 1 1).weekday
  let long := first = 3 ∨ (first = 2 ∧ Date.isLeap year)
  if year = 0 ∨ week = 0 ∨ week > 53 ∨ (week = 53 ∧ ¬long) ∨ weekday = 0 ∨ weekday > 7 then none
  else
    let n := Date.isoYearStart year + (week - 1 : Nat) * 7 + (weekday - 1 : Nat)
    if n ≤ 0 then none else Date.ofOrdinal? n.toNat

/-- A date that takes all of the text. -/
def date? (cs : List Char) : Option Date := do
  let (year, rest) ← digits? 4 cs
  let extended := rest.head? = some '-'
  let rest := if extended then rest.drop 1 else rest
  match rest with
  | 'W' :: rest =>
    let (week, rest) ← digits? 2 rest
    if rest.isEmpty then weekDate? year week 1
    else
      let rest ← if extended then (if rest.head? = some '-' then some (rest.drop 1) else none) else some rest
      let (weekday, _) ← digits? 1 rest
      weekDate? year week weekday
  | rest =>
    let (month, rest) ← digits? 2 rest
    let rest ← if extended then (if rest.head? = some '-' then some (rest.drop 1) else none) else some rest
    let (day, rest) ← digits? 2 rest
    let date : Date := ⟨year, month, day⟩
    if rest.isEmpty ∧ date.isValid then some date else none

/-- Up to six places of a second; further digits are passed over. -/
def fraction? (cs : List Char) : Option (Nat × List Char) :=
  let count := min cs.length 6
  if count = 0 then none
  else
    match digits? count cs with
    | some (n, rest) => some (n * 10 ^ (6 - count), rest.dropWhile Char.isDigit)
    | none => none

/-- Hours, minutes and seconds, with colons between all of them or none; `parts` holds those read, the
last first. A point or comma starts a fraction, and so do digits after full seconds without colons. -/
def clockFrom (colons : Bool) (parts : List Nat) : Nat → List Char → Option (List Nat × Nat × List Char)
  | 0, cs =>
    if cs.isEmpty then some (parts.reverse, 0, [])
    else (fraction? cs).map fun (f, rest) => (parts.reverse, f, rest)
  | left + 1, cs =>
    match digits? 2 cs with
    | none => none
    | some (n, rest) =>
      let parts := n :: parts
      match rest with
      | [] => some (parts.reverse, 0, [])
      | [c] => some (parts.reverse, 0, [c])
      | c :: more =>
        let colons := if parts.length = 1 then c = ':' else colons
        if colons ∧ c = ':' then
          (if left = 0 then (fraction? more).map fun (f, rest) => (parts.reverse, f, rest)
           else clockFrom colons parts left more)
        else if c = '.' ∨ c = ',' then (fraction? more).map fun (f, rest) => (parts.reverse, f, rest)
        else if colons then none
        else clockFrom colons parts left rest

/-- A time of day, and what follows it: one character or, after a fraction, any more. -/
def clock? (cs : List Char) : Option (Clock × List Char) :=
  (clockFrom true [] 3 cs).map fun (parts, f, rest) =>
    (⟨parts[0]?.getD 0, parts[1]?.getD 0, parts[2]?.getD 0, f⟩, rest)

def isZoneStart (c : Char) : Bool := c = '+' || c = '-' || c = 'Z'

/-- An offset in microseconds, less than a day either way; one of less than a second counts as none. -/
def offset? (cs : List Char) : Option Int :=
  match cs with
  | ['Z'] => some 0
  | sign :: rest =>
    if sign = 'Z' then none
    else do
      let (c, rest) ← clock? rest
      let seconds := (c.hour * 60 + c.minute) * 60 + c.second
      let n : Int := if seconds = 0 then 0 else (seconds * 1000000 + c.microsecond : Nat)
      if rest.isEmpty ∧ n < 86400000000 then some (if sign = '-' then -n else n) else none
  | [] => none

/-- A moment that takes all of the text, but for what stands between the time of day and an offset. -/
def moment? (s : String) : Option Moment := do
  let cs := s.toList
  let n ← dateLength? cs
  let date ← date? (cs.take n)
  if cs.length ≤ n then return ⟨date, ⟨0, 0, 0, 0⟩, none⟩
  let rest := cs.drop (n + 1)
  let (clock, left) ← clock? (rest.takeWhile fun c => !isZoneStart c)
  let zone := rest.dropWhile fun c => !isZoneStart c
  if !clock.isValid then none
  else if zone.isEmpty then (if left.isEmpty then some ⟨date, clock, none⟩ else none)
  else (offset? zone).map fun offset => ⟨date, clock, some offset⟩

example : (moment? "20240101").map Moment.text = some "2024-01-01 00:00:00" := by decide +kernel
example : (moment? "2024-W01-1T10:20:30.5+02:00").map Moment.text =
    some "2024-01-01 10:20:30.500000+02:00" := by decide +kernel
example : moment? "2024-01-01T24:00:00" = none := by decide +kernel

end DocFetch.Iso
