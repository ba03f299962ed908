import DocFetch.Failure

/-! # Documents as a store returns them

A document is its content with the change counter and the expiry time that the store gives it. Both are
numbers within fixed bounds.
-/

namespace DocFetch

def maxCas : Int := 2 ^ 64 - 1

def maxExpiry : Int := 2 ^ 32 - 1

/-- Values that compare with integers; a truth value counts as 0 or 1. -/
inductive Number
  | int (n : Int)
  | float (x : Binary64)
  | bool (b : Bool)
deriving DecidableEq, Repr

namespace Number

def ofValue? : Value → Option Number
  | .int n => some (.int n)
  | .float x => some (.float x)
  | .bool b => some (.bool b)
  | _ => none

def toValue : Number → Value
  | .int n => .int n
  | .float x => .float x
  | .bool b => .bool b

def text (n : Number) : String := n.toValue.display

/-- Whether the number lies between 0 and `upper`. -/
def inRange (upper : Int) : Number → Bool
  | .int n => 0 ≤ n && n ≤ upper
  | .float x =>
    match x.compareInt? 0, x.compareInt? upper with
    | some low, some high => low != .lt && high != .gt
    | _, _ => false
  | .bool _ => true

end Number

structure Document (α : Type) where
  content : α
  cas : Number
  expiry : Number := .int 0

namespace Document

/-- A document with these metadata, which have to be numbers in range; any kind of number will do. -/
def make {α : Type} (content : α) (cas : Value) (expiry : Value := .int 0) :
    Except Failure (Document α) := do
  let some c := Number.ofValue? cas | .error (.fault .wrongType)
  unless c.inRange maxCas do .error (.refused (.casOutOfRange c.text))
  let some e := Number.ofValue? expiry | .error (.fault .wrongType)
  unless e.inRange maxExpiry do .error (.refused (.expiryOutOfRange e.text))
  return { content, cas := c, expiry := e }

/-- An integer within bounds, or an error that names the document and the field. -/
def checkedInt (id field : String) (value : Value) (upper : Int) : Except Failure Int :=
  let name := "Document " ++ Text.quoted id
  match value with
  | .int n =>
    if 0 ≤ n ∧ n ≤ upper then .ok n
    else .error (.fetch (.say .transcoding (name ++ " has " ++ field ++ " out of range: " ++ toString n)))
  | v => .error (.fetch (.say .transcoding (name ++ " has a non-integer " ++ field ++ ": " ++ v.shown)))

/-- A document from the metadata that a store holds, which have to be integers in range. -/
def ofStored {α : Type} (id : String) (content : α) (cas : Value) (expiry : Value := .int 0) :
    Except Failure (Document α) := do
  let cas ← checkedInt id "cas" cas maxCas
  let expiry ← checkedInt id "expiry" expiry maxExpiry
  make content (.int cas) (.int expiry)

end Document

/-! ## Bytes from plain data

A sequence of integers from 0 to 255 gives these bytes, and a length gives that many zero bytes.
-/

namespace Value

private def byteOf : Value → Except Failure UInt8
  | .int n => if 0 ≤ n ∧ n < 256 then .ok (UInt8.ofNat n.toNat) else .error (.fault .badValue)
  | .bool b => .ok (if b then 1 else 0)
  | _ => .error (.fault .wrongType)

def zeroBytes (n : Int) : Except Failure ByteArray :=
  if n < 0 then .error (.fault .badValue)
  else if n < 2 ^ 31 then .ok ⟨Array.replicate n.toNat 0⟩
  else .error (.fault .overflow)

def toBytes : Value → Except Failure ByteArray
  | .bytes b => .ok b
  | .int n => zeroBytes n
  | .bool b => zeroBytes (if b then 1 else 0)
  | .list items => do return ⟨(← items.mapM byteOf).toArray⟩
  | .map entries => do return ⟨(← entries.mapM fun e => byteOf e.1).toArray⟩
  | _ => .error (.fault .wrongType)

end Value

end DocFetch
