import DocFetch.Document.Basic
import DocFetch.Record.Basic
import DocFetch.World

/-! # New records

Attributes are a mapping whose keys and values are taken by their text; nothing or anything empty
stands for no attributes. A record gets its uuid once its attributes are known to be good, and before its payload is
looked at.
-/

namespace DocFetch

def attributesOfEntries (entries : List (Value × Value)) : Attributes :=
  Assoc.ofList (entries.map fun (k, v) => (k.display, v.display))

def attributesOfValue : Value → Except Failure Attributes
  | .map entries => .ok (attributesOfEntries entries)
  | v => if v.isTruthy then .error (.fault .noSuchMember) else .ok []

/-- The two elements of a pair given as a sequence or as a text of two characters. -/
def pairOfValue : Value → Except Failure (Value × Value)
  | .list [k, v] => .ok (k, v)
  | .text s =>
    match s.toList with
    | [k, v] => .ok (.text (String.singleton k), .text (String.singleton v))
    | _ => .error (.fault .badValue)
  | .list _ => .error (.fault .badValue)
  | .map [(k, _), (v, _)] => .ok (k, v)
  | .map _ => .error (.fault .badValue)
  | _ => .error (.fault .wrongType)

/-- Attributes that may also come as a sequence of pairs. -/
def attributesOfPairs : Value → Except Failure Attributes
  | .map entries => .ok (attributesOfEntries entries)
  | .list items => do
    let pairs ← items.mapM pairOfValue
    return attributesOfEntries (pairs.foldl (fun acc (k, v) => Value.putEntry k v acc) [])
  | .text s => if s.isEmpty then .ok [] else .error (.fault .badValue)
  | v => if v.isTruthy then .error (.fault .wrongType) else .ok []

/-- Payloads are bytes; a text is refused. -/
def Record.ofParts (uuid : String) (payload attributes : Value) : Except Failure Record := do
  let payload ← payload.toBytes
  let attributes ← attributesOfValue attributes
  return { uuid, attributes, payload }

/-- The payload of a record to be created, where a text stands for its UTF-8 bytes. -/
def payloadOfValue : Value → Value
  | .text s => .bytes (Text.encodeUtf8 s)
  | v => v

def Record.create (uuid : Nat → String) (payload attributes : Value) : Action World Record := do
  let attributes ← Action.ofExcept (attributesOfPairs attributes)
  let id ← (World.draw uuid : StateM World String)
  Action.ofExcept (Record.ofParts id (payloadOfValue payload) (Record.attributesValue attributes))

/-- A record with a given uuid, or a new one, made without any conversion of its payload. -/
def Record.construct (uuid : Nat → String) (given : Option String) (payload attributes : Value) :
    Action World Record := do
  let id ← match given with
    | some u => pure u
    | none => (World.draw uuid : StateM World String)
  Action.ofExcept (Record.ofParts id payload attributes)

end DocFetch
