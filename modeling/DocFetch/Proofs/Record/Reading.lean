import DocFetch.Database.Events
import DocFetch.Proofs.Json.Reading
import DocFetch.Proofs.Record.Updates

/-! # Records read back

A record is read back from its plain data, and from its JSON text where it has one value to a name. The payload is
decoded by the encoding that stands next to it.
-/

namespace DocFetch

/-- The text under a path of names. -/
def Value.textAt? : List String → Value → Option String
  | [], .text s => some s
  | [], _ => none
  | name :: path, v => (v.get? name).bind (textAt? path)

namespace Record

/-! ## Distinct names -/

theorem nodup_keys_attributesOfValue {v : Value} {a : Attributes} (h : attributesOfValue v = .ok a) :
    (a.map Prod.fst).Nodup := by
  unfold attributesOfValue at h
  split at h
  · cases h
    have hnil : (([] : Attributes).map Prod.fst).Nodup := List.nodup_nil
    exact Assoc.nodup_keys_merge hnil _
  · split at h
    · cases h
    · cases h
      exact List.nodup_nil

theorem nodup_names_ofParts {uuid : String} {payload attributes : Value} {r : Record}
    (h : ofParts uuid payload attributes = .ok r) : r.names.Nodup := by
  unfold ofParts at h
  rcases hpayload : payload.toBytes with e | bytes
  · rw [hpayload] at h
    cases h
  · rw [hpayload] at h
    rcases hattributes : attributesOfValue attributes with e | a
    · rw [hattributes] at h
      cases h
    · rw [hattributes] at h
      cases h
      exact nodup_keys_attributesOfValue hattributes

theorem nodup_names_withAttributes {r : Record} (h : r.names.Nodup) (updates : Attributes) :
    (r.withAttributes updates).names.Nodup := Assoc.nodup_keys_merge h updates

/-! ## Payloads -/

/-- The payload as a text, and the encoding of that text. -/
def encodedPayload (r : Record) : String × String :=
  match r.text? with
  | some s => (s, "utf-8")
  | none => (Text.encodeBase64 r.payload, "base64")

def decodePayload? (payload encoding : String) : Option ByteArray :=
  if encoding = "utf-8" then some (Text.encodeUtf8 payload)
  else if encoding = "base64" then Text.decodeBase64? payload
  else none

theorem decodePayload?_encodedPayload (r : Record) :
    decodePayload? r.encodedPayload.1 r.encodedPayload.2 = some r.payload := by
  unfold encodedPayload
  cases htext : r.text? with
  | some s => exact congrArg some (Text.encodeUtf8_of_decodeUtf8? htext)
  | none => exact Text.decodeBase64?_encodeBase64 r.payload

/-! ## Plain data -/

theorem get?_toValue (r : Record) (name : String) :
    r.toValue.get? name =
      if "uuid" = name then some (.text r.uuid)
      else if "attributes" = name then some (attributesValue r.attributes)
      else if "payload" = name then some (.text r.encodedPayload.1)
      else if "payload_encoding" = name then some (.text r.encodedPayload.2)
      else none := rfl

def attributeOf? : Value × Value → Option (String × String)
  | (.text name, .text value) => some (name, value)
  | _ => none

/-- The record that plain data stand for. -/
def ofValue? (v : Value) : Option Record := do
  let uuid ← v.textAt? ["uuid"]
  let .map entries ← v.get? "attributes" | none
  let attributes ← entries.mapM attributeOf?
  let payload ← decodePayload? (← v.textAt? ["payload"]) (← v.textAt? ["payload_encoding"])
  return { uuid, attributes, payload }

theorem attributesValue_eq (a : Attributes) :
    attributesValue a = .map (a.map fun e => (Value.text e.1, Value.text e.2)) := by
  unfold attributesValue Value.object
  rw [List.map_map]
  rfl

theorem mapM_attributeOf? (a : Attributes) :
    (a.map fun e => (Value.text e.1, Value.text e.2)).mapM attributeOf? = some a := by
  induction a with
  | nil => rfl
  | cons e rest ih =>
    rw [List.map_cons, List.mapM_cons, ih]
    rfl

theorem ofValue?_toValue (r : Record) : ofValue? r.toValue = some r := by
  have hentries : r.toValue.get? "attributes" =
      some (.map (r.attributes.map fun e => (Value.text e.1, Value.text e.2))) := by
    rw [← attributesValue_eq]
    rfl
  have huuid : r.toValue.textAt? ["uuid"] = some r.uuid := rfl
  have hpayload : r.toValue.textAt? ["payload"] = some r.encodedPayload.1 := rfl
  have hencoding : r.toValue.textAt? ["payload_encoding"] = some r.encodedPayload.2 := rfl
  unfold ofValue?
  rw [huuid, hentries, hpayload, hencoding]
  simp only [Option.bind_eq_bind, Option.bind_some, mapM_attributeOf?, decodePayload?_encodedPayload]
  rfl

/-! ## JSON texts -/

theorem isTexts_attributesValue {a : Attributes} (h : (a.map Prod.fst).Nodup) : (attributesValue a).IsTexts := by
  refine .object ?_ ?_
  · rwa [List.map_map]
  · intro e he
    obtain ⟨x, -, rfl⟩ := List.mem_map.mp he
    exact .text x.2

/-- A record with one value to a name is read back from its JSON text. -/
theorem read?_toValue {r : Record} (h : (r.attributes.map Prod.fst).Nodup) :
    Json.read? (Json.write r.toValue) = some r.toValue := by
  refine Json.read?_write ?_
  unfold toValue
  split
  have hnames : ["uuid", "attributes", "payload", "payload_encoding"].Nodup := by decide
  refine .object hnames ?_
  simp only [List.forall_mem_cons, List.not_mem_nil, false_implies, implies_true, and_true]
  exact ⟨.text _, isTexts_attributesValue h, .text _, .text _⟩

theorem read?_attributesJson {a : Attributes} (h : (a.map Prod.fst).Nodup) :
    ∃ sorted : Attributes, sorted.Perm a ∧ Json.read? (attributesJson a) = some (attributesValue sorted) := by
  have hperm := List.mergeSort_perm a fun x y => x.1 ≤ y.1
  exact ⟨_, hperm, Json.read?_write (isTexts_attributesValue ((hperm.map Prod.fst).nodup_iff.mpr h))⟩

/-- The record that a line stands for. -/
def ofLine? (s : String) : Option Record := (Json.read? s).bind ofValue?

theorem ofLine?_write {r : Record} (h : r.names.Nodup) : ofLine? (Json.write r.toValue) = some r := by
  rw [ofLine?, read?_toValue h, Option.bind_some, ofValue?_toValue]

/-! ## Equal data -/

theorem get?_attributesValue (a : Attributes) (k : String) :
    (attributesValue a).get? k = (Assoc.get? k a).map Value.text := by
  rw [attributesValue_eq]
  induction a with
  | nil => rfl
  | cons e rest ih =>
    change (if e.1 = k then some (Value.text e.2) else Value.field? k (rest.map _)) = _
    rw [Assoc.get?]
    by_cases he : e.1 = k
    · rw [if_pos he, if_pos (beq_iff_eq.mpr he), Option.map_some]
    · rw [if_neg he, if_neg (by rwa [beq_iff_eq])]
      exact ih

variable {x y : Record}

theorem same_iff (hx : x.names.Nodup) (hy : y.names.Nodup) :
    x.same y = true ↔ x.uuid = y.uuid ∧ x.payload = y.payload ∧
      ∀ k, Assoc.get? k x.attributes = Assoc.get? k y.attributes := by
  have hmem : (∀ k, Assoc.get? k x.attributes = Assoc.get? k y.attributes) ↔
      ∀ e, e ∈ x.attributes ↔ e ∈ y.attributes := by
    simp only [Option.ext_iff, Assoc.get?_eq_some_iff hx, Assoc.get?_eq_some_iff hy, Prod.forall]
  have hbytes : (x.payload.data == y.payload.data) = true ↔ x.payload = y.payload := by
    rw [beq_iff_eq, ByteArray.ext_iff]
  rw [hmem, same]
  change (_ && x.payload.data == y.payload.data && _ && _) = true ↔ _
  simp only [Bool.and_eq_true, beq_iff_eq, hbytes, List.all_eq_true, List.contains_iff_mem, and_assoc, iff_def,
    forall_and]

/-- Records are equal when their plain data hold the same texts under all paths. -/
theorem same_iff_textAt? (hx : x.names.Nodup) (hy : y.names.Nodup) :
    x.same y = true ↔ ∀ path, x.toValue.textAt? path = y.toValue.textAt? path := by
  rw [same_iff hx hy]
  constructor
  · rintro ⟨huuid, hpayload, hattributes⟩ path
    have hencoded : x.encodedPayload = y.encodedPayload := by
      unfold encodedPayload text?
      rw [hpayload]
    match path with
    | [] => rfl
    | name :: rest =>
      change (x.toValue.get? name).bind (Value.textAt? rest) = (y.toValue.get? name).bind (Value.textAt? rest)
      rw [get?_toValue, get?_toValue, huuid, hencoded]
      by_cases hname : "attributes" = name
      · subst hname
        match rest with
        | [] => rfl
        | k :: rest =>
          change ((attributesValue x.attributes).get? k).bind _ = ((attributesValue y.attributes).get? k).bind _
          rw [get?_attributesValue, get?_attributesValue, hattributes]
      · rw [if_neg hname, if_neg hname]
  · intro h
    have huuid : some x.uuid = some y.uuid := h ["uuid"]
    have hpayload : some x.encodedPayload.1 = some y.encodedPayload.1 := h ["payload"]
    have hencoding : some x.encodedPayload.2 = some y.encodedPayload.2 := h ["payload_encoding"]
    have hdecoded := decodePayload?_encodedPayload x
    rw [Option.some.inj hpayload, Option.some.inj hencoding, decodePayload?_encodedPayload] at hdecoded
    refine ⟨Option.some.inj huuid, (Option.some.inj hdecoded).symm, fun k => ?_⟩
    have hk : ((attributesValue x.attributes).get? k).bind (Value.textAt? []) =
        ((attributesValue y.attributes).get? k).bind (Value.textAt? []) := h ["attributes", k]
    have htext (o : Option String) : (o.map Value.text).bind (Value.textAt? []) = o := by
      cases o <;> rfl
    rwa [get?_attributesValue, get?_attributesValue, htext, htext] at hk

end Record

end DocFetch
