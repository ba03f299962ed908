import DocFetch.Assoc
import DocFetch.Calendar
import DocFetch.Decimal.Shortest
import DocFetch.Text.Integer

/-! # Trees of plain data

Configuration files, stored documents and command arguments are trees of scalars, sequences and
mappings. The keys of a mapping are values themselves and stay in order of first insertion.
-/

namespace DocFetch

inductive Value
  | null
  | bool (b : Bool)
  | int (n : Int)
  | float (x : Binary64)
  | text (s : String)
  | bytes (b : ByteArray)
  | date (d : Date)
  | moment (m : Moment)
  | list (items : List Value)
  | map (entries : List (Value × Value))
deriving Inhabited

namespace Value

mutual

/-- Whether two values are the same, with the entries of mappings in the same order. -/
def beq : Value → Value → Bool
  | .null, .null => true
  | .bool a, .bool b => a == b
  | .int a, .int b => a == b
  | .float a, .float b => a == b
  | .text a, .text b => a == b
  | .bytes a, .bytes b => a == b
  | .date a, .date b => a == b
  | .moment a, .moment b => a == b
  | .list a, .list b => beqItems a b
  | .map a, .map b => beqEntries a b
  | _, _ => false

def beqItems : List Value → List Value → Bool
  | [], [] => true
  | a :: as, b :: bs => a.beq b && beqItems as bs
  | _, _ => false

def beqEntries : List (Value × Value) → List (Value × Value) → Bool
  | [], [] => true
  | (k, v) :: as, (k', v') :: bs => k.beq k' && v.beq v' && beqEntries as bs
  | _, _ => false

end

instance : BEq Value := ⟨beq⟩

/-- A number as a key: truth values count as 0 and 1, and a float with an integral value as that integer. -/
def numericKey? : Value → Option Int
  | .bool b => some (if b then 1 else 0)
  | .int n => some n
  | .float x => x.toInt?
  | _ => none

/-- Whether two keys of a mapping are the same key. -/
def sameKey (a b : Value) : Bool :=
  match a.numericKey?, b.numericKey? with
  | some m, some n => m == n
  | none, none => a == b
  | _, _ => false

def putEntry (k v : Value) : List (Value × Value) → List (Value × Value)
  | [] => [(k, v)]
  | (k', v') :: rest => if sameKey k' k then (k', v) :: rest else (k', v') :: putEntry k v rest

def field? (name : String) : List (Value × Value) → Option Value
  | [] => none
  | (.text k, v) :: rest => if k = name then some v else field? name rest
  | _ :: rest => field? name rest

/-- The field of a mapping. -/
def get? (v : Value) (name : String) : Option Value :=
  match v with
  | .map entries => field? name entries
  | _ => none

/-- A mapping with text keys. -/
def object (fields : List (String × Value)) : Value := .map (fields.map fun (k, v) => (.text k, v))

/-- Whether a value counts as present: neither nothing, false, zero nor empty. -/
def isTruthy : Value → Bool
  | .null => false
  | .bool b => b
  | .int n => n != 0
  | .float x => !x.isZero
  | .text s => !s.isEmpty
  | .bytes b => !b.isEmpty
  | .date _ => true
  | .moment _ => true
  | .list items => !items.isEmpty
  | .map entries => !entries.isEmpty

mutual

/-- Whether every integer in a value can be written in base ten. -/
def isWritable : Value → Bool
  | .int n => (Text.writeInteger? n).isSome
  | .list items => itemsWritable items
  | .map entries => entriesWritable entries
  | _ => true

def itemsWritable : List Value → Bool
  | [] => true
  | v :: rest => v.isWritable && itemsWritable rest

def entriesWritable : List (Value × Value) → Bool
  | [] => true
  | (k, v) :: rest => k.isWritable && v.isWritable && entriesWritable rest

end

end Value

end DocFetch
