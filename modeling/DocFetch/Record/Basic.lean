import DocFetch.Failure
import DocFetch.Text.Base64
import DocFetch.Text.Utf8

/-! # Records

A record is a payload of bytes with text attributes in order. Updating attributes keeps payload and
uuid, so that a record can be followed from channel to channel.
-/

namespace DocFetch

abbrev Attributes := List (String × String)

structure Record where
  uuid : String
  attributes : Attributes := []
  payload : ByteArray := .empty
deriving DecidableEq

namespace Record

def size (r : Record) : Nat := r.payload.size

/-- The payload as text, if it is one. -/
def text? (r : Record) : Option String := Text.decodeUtf8? r.payload

def withAttributes (r : Record) (updates : Attributes) : Record :=
  { r with attributes := Assoc.merge r.attributes updates }

/-- Whether records are equal; the order of attributes does not count. -/
def same (x y : Record) : Bool :=
  x.uuid == y.uuid && x.payload == y.payload && x.attributes.all (fun e => y.attributes.contains e) &&
    y.attributes.all (fun e => x.attributes.contains e)

/-- How a record is named in messages. -/
def label (r : Record) : String := "Record[uuid=" ++ r.uuid ++ ", size=" ++ toString r.size ++ "]"

/-- The label of a record that may be absent. -/
def labelOf (r : Option Record) : String := (r.map label).getD "None"

def attributesValue (a : Attributes) : Value := .object (a.map fun (k, v) => (k, .text v))

/-- The record as plain data; a payload that is no text is given in base 64. -/
def toValue (r : Record) : Value :=
  let (payload, encoding) := match r.text? with
    | some s => (s, "utf-8")
    | none => (Text.encodeBase64 r.payload, "base64")
  .object [("uuid", .text r.uuid), ("attributes", attributesValue r.attributes),
    ("payload", .text payload), ("payload_encoding", .text encoding)]

@[simp] theorem withAttributes_uuid (r : Record) (a : Attributes) :
    (r.withAttributes a).uuid = r.uuid := rfl

@[simp] theorem withAttributes_payload (r : Record) (a : Attributes) :
    (r.withAttributes a).payload = r.payload := rfl

end Record

end DocFetch
