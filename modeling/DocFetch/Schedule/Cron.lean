import DocFetch.Failure
import DocFetch.Text.Blank
import DocFetch.Text.Casing
import DocFetch.Text.Digits

/-! # Cron expressions

Five fields: minute, hour, day, month and day of the week, each a list of expressions. Months and days of
the week may go by name, and `last` is the last day of a month.
-/

namespace DocFetch.Cron

inductive Unit
  | minute
  | hour
  | day
  | month
  | dayOfWeek
deriving DecidableEq, Repr

namespace Unit

def name : Unit → String
  | minute => "minute"
  | hour => "hour"
  | day => "day"
  | month => "month"
  | dayOfWeek => "day_of_week"

def least : Unit → Nat
  | minute | hour | dayOfWeek => 0
  | day | month => 1

def greatest : Unit → Nat
  | minute => 59
  | hour => 23
  | day => 31
  | month => 12
  | dayOfWeek => 6

/-- The names of the values, from the least on. -/
def names : Unit → List String
  | month => ["jan", "feb", "mar", "apr", "may", "jun", "jul", "aug", "sep", "oct", "nov", "dec"]
  | dayOfWeek => ["mon", "tue", "wed", "thu", "fri", "sat", "sun"]
  | _ => []

end Unit

inductive Term
  | all (step : Option Nat)
  | range (first : Nat) (last : Option Nat) (step : Option Nat)
  | named (first : String) (last : Option String)
  | lastDay
deriving DecidableEq, Repr

def stepText (step : Option Nat) : String :=
  match step with
  | some n => if n = 0 then "" else "/" ++ toString n
  | none => ""

namespace Term

def text : Term → String
  | all step => "*" ++ stepText step
  | range first last step =>
    (match last with
      | some l => if l ≠ first then toString first ++ "-" ++ toString l else toString first
      | none => toString first) ++ stepText step
  | named first last =>
    match last with
    | some l => if l ≠ first then first ++ "-" ++ l else first
    | none => first
  | lastDay => "last"

end Term

/-- The number written by the digits at the start, if there are any. -/
def number? (cs : List Char) : Option Nat × List Char :=
  let ds := cs.takeWhile Text.isDecimalDigit
  if ds.isEmpty then (none, cs)
  else (some (ds.foldl (fun n c => 10 * n + Text.decimalDigit c) 0), cs.drop ds.length)

/-- A step after a slash that ends the text; none where something else follows. -/
def stepEnd? (cs : List Char) : Option (Option Nat) :=
  match cs with
  | [] => some none
  | '/' :: rest =>
    match number? rest with
    | (some n, []) => some (some n)
    | _ => none
  | _ => none

/-- Reads the term for all values or a range of numbers. -/
def readNumeric? (cs : List Char) : Option Term :=
  match cs with
  | '*' :: rest => (stepEnd? rest).map Term.all
  | cs =>
    match number? cs with
    | (none, _) => none
    | (some first, rest) =>
      match rest with
      | '-' :: rest =>
        match number? rest with
        | (some last, rest) => (stepEnd? rest).map (Term.range first (some last))
        | (none, _) => none
      | rest => (stepEnd? rest).map fun step => Term.range first (if step.isNone then some first else none) step

/-- Whether a term keeps to the values of its unit. -/
def fits (u : Unit) : Term → Bool
  | .all step => step.all fun s => 0 < s && s ≤ u.greatest - u.least
  | .range first last step =>
    let span := (if last.getD 0 = 0 then u.greatest else last.getD 0) - first
    (step.all fun s => 0 < s && s ≤ u.greatest - u.least) && last.all (first ≤ ·) && u.least ≤ first &&
      last.all (· ≤ u.greatest) && first ≤ u.greatest && step.all (· ≤ span)
  | _ => true

/-- Whether a term takes in a value of its unit; `last` is known only within a month. -/
def Term.holds (u : Unit) (n : Nat) : Term → Bool
  | .all step => step.all fun s => s = 0 || (n - u.least) % s = 0
  | .range first last step =>
    first ≤ n && last.all (n ≤ ·) && step.all fun s => s = 0 || (n - first) % s = 0
  | .named first last =>
    match u.names.idxOf? first, u.names.idxOf? (last.getD first) with
    | some i, some j => i + u.least ≤ n && n ≤ j + u.least
    | _, _ => false
  | .lastDay => false

def isLetter (c : Char) : Bool := c.isAlpha

/-- A name at the start, or two with a hyphen; what follows is passed over. -/
def readNamed? (u : Unit) (cs : List Char) : Option Term := do
  let lower (l : List Char) : String := Text.toLower (String.ofList l)
  let first := lower (cs.takeWhile isLetter)
  let rest := cs.dropWhile isLetter
  let last := match rest with
    | '-' :: rest =>
      let l := rest.takeWhile isLetter
      if l.isEmpty then none else some (lower l)
    | _ => none
  let i ← u.names.idxOf? first
  match last with
  | none => some (.named first none)
  | some l =>
    let j ← u.names.idxOf? l
    if i ≤ j then some (.named first (some l)) else none

def startsWithLast (cs : List Char) : Bool := Text.toLower (String.ofList (cs.take 4)) = "last"

def readTerm? (u : Unit) (cs : List Char) : Option Term :=
  match readNumeric? cs with
  | some t => if fits u t then some t else none
  | none =>
    if (cs.head?).any isLetter then
      match u with
      | .month | .dayOfWeek => readNamed? u cs
      | .day => if startsWithLast cs then some .lastDay else none
      | _ => none
    else none

def readField? (u : Unit) (field : List Char) : Option (List Term) :=
  (field.splitOn ',').mapM (readTerm? u)

/-- The pieces between runs of blanks. -/
def words (cs : List Char) : List (List Char) :=
  (cs.splitBy fun a b => Text.isBlank a == Text.isBlank b).filter fun w => !(w.head?).any Text.isBlank

structure Expression where
  minute : List Term
  hour : List Term
  day : List Term
  month : List Term
  dayOfWeek : List Term
deriving DecidableEq, Repr

def read? (s : String) : Option Expression :=
  match words s.toList with
  | [minute, hour, day, month, dayOfWeek] => do
    return {
      minute := ← readField? .minute minute, hour := ← readField? .hour hour
      day := ← readField? .day day, month := ← readField? .month month
      dayOfWeek := ← readField? .dayOfWeek dayOfWeek }
  | _ => none

/-- The most days that a month ever has. -/
def longest (month : Nat) : Nat := if month = 2 then 29 else if month ∈ [4, 6, 9, 11] then 30 else 31

/-- Whether some day of some year fits; every day of a month falls on every day of the week in time. -/
def Expression.occurs (e : Expression) : Bool :=
  (List.range' 1 12).any fun m =>
    e.month.any (Term.holds .month m) &&
      (e.day.contains .lastDay || (List.range' 1 (longest m)).any fun d => e.day.any (Term.holds .day d))

def fieldText (u : Unit) (terms : List Term) : String :=
  u.name ++ "='" ++ ",".intercalate (terms.map Term.text) ++ "'"

def Expression.text (e : Expression) : String :=
  "cron[" ++ ", ".intercalate [fieldText .month e.month, fieldText .day e.day,
    fieldText .dayOfWeek e.dayOfWeek, fieldText .hour e.hour, fieldText .minute e.minute] ++ "]"

example : (read? "*/5 1-5 last jan mon-fri").map Expression.text =
    some "cron[month='jan', day='last', day_of_week='mon-fri', hour='1-5', minute='*/5']" := by
  decide +kernel
example : (read? "0 0 30 2 *").map Expression.occurs = some false := by decide +kernel
example : read? "*/61 * * * *" = none := by decide +kernel

end DocFetch.Cron
