import DocFetch.Fetch.Basic
import DocFetch.Store.Scripted

/-! # Outcomes of a fetch

Once the id is known, what the store answers decides the result of a fetch and the records that it sends to
the channels. The table below has one row for each way in which a fetch can end.
-/

namespace DocFetch

variable {σ : Type}

/-- Attributes that come from others by setting one of them, which is the last if it was not there. -/
structure SetsOnly (key value : String) (before after : Attributes) : Prop where
  set : Assoc.get? key after = some value
  others : ∀ k, k ≠ key → Assoc.get? k after = Assoc.get? k before
  keys : after.map Prod.fst =
    if key ∈ before.map Prod.fst then before.map Prod.fst else before.map Prod.fst ++ [key]

/-- The transfers of a record that may be absent to one channel, with one attribute set. -/
inductive Marked (channel : Channel) (key value : String) : Option Record → List Transfer → Prop
  | absent : Marked channel key value none []
  | present {r r' : Record} : r'.uuid = r.uuid → r'.payload = r.payload →
      SetsOnly key value r.attributes r'.attributes → Marked channel key value (some r) [⟨channel, r'⟩]

theorem SetsOnly.put (key value : String) (attributes : Attributes) :
    SetsOnly key value attributes (Assoc.put key value attributes) where
  set := Assoc.get?_put_self key value attributes
  others _ hk := Assoc.get?_put_of_ne (Ne.symm hk) value attributes
  keys := Assoc.keys_put key value attributes

theorem Marked.withAttributes (channel : Channel) (key value : String) (record : Option Record) :
    Marked channel key value record
      (record.map fun r => Transfer.mk channel (r.withAttributes [(key, value)])).toList := by
  cases record with
  | none => exact .absent
  | some r => exact .present rfl rfl (.put key value r.attributes)

namespace Fetcher

/-- What the store answers to the request that the settings name, with a text counted by its UTF-8 bytes. -/
inductive Answers (f : Fetcher σ) (id : String) (s : σ) : Except Failure (Document ByteArray) → σ → Prop
  | text {d : Document String} {t : σ} : f.config.documentType = .json →
      (f.store.getJson id).exec s = (.ok d, t) →
      Answers f id s (.ok { content := Text.encodeUtf8 d.content, cas := d.cas, expiry := d.expiry }) t
  | bytes {d : Document ByteArray} {t : σ} : f.config.documentType = .binary →
      (f.store.getBinary id).exec s = (.ok d, t) → Answers f id s (.ok d) t
  | noText {e : Failure} {t : σ} : f.config.documentType = .json →
      (f.store.getJson id).exec s = (.error e, t) → Answers f id s (.error e) t
  | noBytes {e : Failure} {t : σ} : f.config.documentType = .binary →
      (f.store.getBinary id).exec s = (.error e, t) → Answers f id s (.error e) t

/-- How a fetch for a record ends by the answer of the store and the state after it. -/
inductive Ending (f : Fetcher σ) (record : Option Record) (id : String) :
    Except Failure (Document ByteArray) → σ → Except Failure FetchOutcome → σ → Prop
  | found {d : Document ByteArray} {t u : σ} {out : Record} : out.uuid = (f.draw.run t).1 →
      out.payload = d.content →
      out.attributes = [("cluster", f.config.clusterService), ("bucket", f.config.bucketName), ("doc.id", id),
        ("doc.cas", d.cas.text), ("doc.expiry", d.expiry.text)] →
      (f.receive out f.transitUri).exec (f.draw.run t).2 = (.ok (), u) →
      Ending f record id (.ok d) t
        (.ok ⟨id, .found d.content d.cas d.expiry, record.toList.map (⟨.original, ·⟩) ++ [⟨.success, out⟩]⟩) u
  | unreported {d : Document ByteArray} {t u : σ} {out : Record} {e : Failure} :
      out = successRecord f.config (f.draw.run t).1 id d.content d.cas d.expiry →
      (f.receive out f.transitUri).exec (f.draw.run t).2 = (.error e, u) →
      Ending f record id (.ok d) t (.error e) u
  | notFound {e : FetchError} {t u : σ} {entry : Log.Entry} {transfers : List Transfer} :
      e.family.isKindOf .notFound = true → entry.level = .warning → ((f.log entry).run t).2 = u →
      Marked .failure "exception" e.family.qualifiedName record transfers →
      Ending f record id (.error (.fetch e)) t (.ok ⟨id, .notFound e, transfers⟩) u
  | storeError {e : FetchError} {t u : σ} {entry : Log.Entry} {transfers : List Transfer} :
      e.family.isKindOf .store = true → e.family.isKindOf .notFound = false →
      entry.level = .error → ((f.log entry).run t).2 = u →
      Marked .retry "error.message" (retryMessage id f.transitUri record e) record transfers →
      Ending f record id (.error (.fetch e)) t (.ok ⟨id, .storeError e, transfers⟩) u
  | passed {e : Failure} {t : σ} : e.isKindOf .store = false → Ending f record id (.error e) t (.error e) t

theorem answers_read (f : Fetcher σ) (id : String) (s : σ) :
    f.Answers id s ((f.read id).exec s).1 ((f.read id).exec s).2 := by
  cases htype : f.config.documentType with
  | json =>
    rw [exec_read_json htype]
    rcases hget : (f.store.getJson id).exec s with ⟨r, t⟩
    cases r with
    | ok d => exact .text htype hget
    | error e => exact .noText htype hget
  | binary =>
    rw [exec_read_binary htype]
    rcases hget : (f.store.getBinary id).exec s with ⟨r, t⟩
    cases r with
    | ok d => exact .bytes htype hget
    | error e => exact .noBytes htype hget

private theorem ending_of_document {f : Fetcher σ} {record : Option Record} {id : String} {s t : σ}
    {d : Document ByteArray} (hid : resolveDocumentId f.config f.resolver record = .ok id)
    (hread : (f.read id).exec s = (.ok d, t)) :
    f.Ending record id (.ok d) t ((f.fetch record).exec s).1 ((f.fetch record).exec s).2 := by
  obtain ⟨out, hout⟩ :
    ∃ out, out = successRecord f.config (f.draw.run t).1 id d.content d.cas d.expiry := ⟨_, rfl⟩
  rw [exec_fetch_of_result hid hread rfl, exec_conclude_found f record id _ _ _ t hout]
  rcases hreceive : (f.receive out f.transitUri).exec (f.draw.run t).2 with ⟨r, u⟩
  cases r with
  | ok _ =>
    have hrow : f.Ending record id (.ok d) t _ u :=
      .found (by rw [hout]; rfl) (by rw [hout]; rfl) (by rw [hout]; rfl) hreceive
    cases record with
    | none => exact hrow
    | some r => exact hrow
  | error e => exact .unreported hout hreceive

private theorem ending_of_failure {f : Fetcher σ} {record : Option Record} {id : String} {s t : σ}
    {e : Failure} (hid : resolveDocumentId f.config f.resolver record = .ok id)
    (hread : (f.read id).exec s = (.error e, t)) :
    f.Ending record id (.error e) t ((f.fetch record).exec s).1 ((f.fetch record).exec s).2 := by
  cases hstore : e.isKindOf .store with
  | false =>
    rw [exec_fetch_of_failure hid hread (FetchResult.ofRead_outside hstore)]
    exact .passed hstore
  | true =>
    cases e with
    | fetch e =>
      cases hnot : e.family.isKindOf .notFound with
      | true =>
        rw [exec_fetch_of_result hid hread (FetchResult.ofRead_notFound hnot), exec_conclude_notFound]
        exact .notFound hnot rfl rfl (.withAttributes _ _ _ record)
      | false =>
        rw [exec_fetch_of_result hid hread (FetchResult.ofRead_store hstore hnot), exec_conclude_storeError]
        exact .storeError hstore hnot rfl rfl (.withAttributes _ _ _ record)
    | _ => cases hstore

/-- Once its id is known, a fetch ends as the table says for the answer of the store. The counters of a
document are written in decimal. -/
theorem fetch_ending (f : Fetcher σ) (record : Option Record) {id : String}
    (hid : resolveDocumentId f.config f.resolver record = .ok id) (s : σ) :
    (∃ answer t, f.Answers id s answer t ∧
      f.Ending record id answer t ((f.fetch record).exec s).1 ((f.fetch record).exec s).2) ∧
    ∀ n : Int, (Number.int n).text = toString n := by
  refine ⟨⟨_, _, f.answers_read id s, ?_⟩, fun n => rfl⟩
  rcases hread : (f.read id).exec s with ⟨answer, t⟩
  cases answer with
  | ok d => exact ending_of_document hid hread
  | error e => exact ending_of_failure hid hread

/-- A fetcher of a scripted store that finds its ids in payloads. -/
def scripted : Fetcher ScriptedStore where
  config := { clusterService := "main", bucketName := "users" }
  store := ScriptedStore.reader "users"
  draw := pure "fresh"
  receive _ _ := pure ()
  log _ := pure ()

/-- A family below that of a missing document sends the record to the same channel, over an attribute that
was there before. -/
theorem fetch_ending_scripted :
    let record : Record := ⟨"one", [("exception", "old"), ("a", "b")], Text.encodeUtf8 "k"⟩
    let e : FetchError := .say (.derived "shop" "Gone" .notFound) ""
    let gone : ScriptedStore := { failure := some (.fetch e) }
    resolveDocumentId scripted.config scripted.resolver (some record) = .ok "k" ∧
    ((∃ answer t, scripted.Answers "k" gone answer t ∧
      scripted.Ending (some record) "k" answer t ((scripted.fetch (some record)).exec gone).1
        ((scripted.fetch (some record)).exec gone).2) ∧
    ∀ n : Int, (Number.int n).text = toString n) ∧
    ((scripted.fetch (some record)).exec gone).1.map FetchOutcome.transfers =
      .ok [⟨.failure, { record with attributes := [("exception", "shop.Gone"), ("a", "b")] }⟩] := by
  intro record e gone
  have hid : resolveDocumentId scripted.config scripted.resolver (some record) = .ok "k" := by
    have htext : record.text? = some "k" := Text.decodeUtf8?_encodeUtf8 "k"
    simp [resolveDocumentId, scripted, htext]
  refine ⟨hid, fetch_ending scripted (some record) hid gone, ?_⟩
  have hread : (scripted.read "k").exec gone = (.error (.fetch e), { gone with calls := [("json", "k")] }) := rfl
  have hnot : e.family.isKindOf .notFound = true := by decide
  rw [exec_fetch_of_result hid hread (FetchResult.ofRead_notFound hnot)]
  rfl

end Fetcher

end DocFetch
