import DocFetch.Proofs.Expression.References
import DocFetch.Proofs.Fetch.Outcomes
import DocFetch.Proofs.Job.Visits

/-! # Fetching again for a record that failed

A record that goes out to be tried again has one attribute more, the message of the failure. Fetching for it ends
as fetching for the first record would end, whatever the store answers by then, as long as the id of the document
is not made from the message.
-/

namespace DocFetch

/-! ## Records that differ by the message -/

/-- Records sent on for `r`: its payload and uuid, and attributes that are the same but for the message of a
failure. -/
structure Record.SentOn (r x x' : Record) : Prop where
  uuid : x.uuid = r.uuid ∧ x'.uuid = r.uuid
  payload : x.payload = r.payload ∧ x'.payload = r.payload
  attributes : Assoc.erase "error.message" x'.attributes = Assoc.erase "error.message" x.attributes

/-- The record with the message of a failure. -/
def Record.failedWith (r : Record) (message : String) : Record :=
  r.withAttributes [(FetchAttribute.errorMessage.name, message)]

namespace Record

variable (r : Record) (message : String)

theorem failedWith_failedWith (message' : String) :
    (r.failedWith message).failedWith message' = r.failedWith message' :=
  congrArg (fun a => { r with attributes := a }) (Assoc.put_put _ message message' r.attributes)

theorem get?_failedWith {n : String} (hn : n ≠ "error.message") :
    Assoc.get? n (r.failedWith message).attributes = Assoc.get? n r.attributes :=
  Assoc.get?_put_of_ne (Ne.symm hn) message r.attributes

theorem labelOf_failedWith : labelOf (some (r.failedWith message)) = labelOf (some r) := rfl

theorem sentOn_failedWith : r.SentOn r (r.failedWith message) where
  uuid := ⟨rfl, rfl⟩
  payload := ⟨rfl, rfl⟩
  attributes := Assoc.erase_put_self "error.message" message r.attributes

theorem sentOn_withAttribute {key : String} (hkey : key ≠ "error.message") (value : String) :
    r.SentOn (r.withAttributes [(key, value)]) ((r.failedWith message).withAttributes [(key, value)]) where
  uuid := ⟨rfl, rfl⟩
  payload := ⟨rfl, rfl⟩
  attributes := by
    change Assoc.erase _ (Assoc.put key value (r.failedWith message).attributes) =
      Assoc.erase _ (Assoc.put key value r.attributes)
    rw [Assoc.erase_put_of_ne hkey, Assoc.erase_put_of_ne hkey, (r.sentOn_failedWith message).attributes]

end Record

theorem retryMessage_failedWith (r : Record) (message id uri : String) (cause : FetchError) :
    retryMessage id uri (some (r.failedWith message)) cause = retryMessage id uri (some r) cause := by
  unfold retryMessage
  rw [r.labelOf_failedWith message]

theorem resolveDocumentId_failedWith {config : FetchConfig} (r : Record) (message : String)
    (h : config.idExpression = "" ∨ ∀ segments, Expression.compile config.idExpression = .ok segments →
      "error.message" ∉ Expression.references segments) :
    resolveDocumentId config .expressions (some (r.failedWith message)) =
      resolveDocumentId config .expressions (some r) := by
  have hfault : idFault (some (r.failedWith message)) = idFault (some r) := by
    unfold idFault
    rw [r.labelOf_failedWith message]
  have hvalue (hne : config.idExpression ≠ "") :
      Expression.run config.idExpression (some (r.failedWith message).attributes) =
        Expression.run config.idExpression (some r.attributes) := by
    apply Expression.run_congr
    intro segments hcompile n hn
    apply congrArg (Option.getD · "")
    apply r.get?_failedWith message
    rintro rfl
    exact (h.resolve_left hne) segments hcompile hn
  unfold resolveDocumentId
  rw [hfault]
  by_cases hne : config.idExpression = ""
  · rw [if_neg (not_not.mpr hne), if_neg (not_not.mpr hne)]
    rfl
  · rw [if_pos hne, if_pos hne]
    unfold Resolver.expressions
    rw [Option.map_some, Option.map_some, hvalue hne]

/-! ## Fetches that end alike -/

/-- How a fetch for `r` and one for `r'` end that differ by the message: with the same id and result, and with
transfers to the same channels. -/
inductive EndsAlike (r r' : Record) : Except Failure FetchOutcome → Except Failure FetchOutcome → Prop
  | found {id : String} {content : ByteArray} {cas expiry : Number} {out out' : Record} : r.SentOn r r' →
      out'.payload = out.payload → out'.attributes = out.attributes →
      EndsAlike r r' (.ok ⟨id, .found content cas expiry, [⟨.original, r⟩, ⟨.success, out⟩]⟩)
        (.ok ⟨id, .found content cas expiry, [⟨.original, r'⟩, ⟨.success, out'⟩]⟩)
  | notFound {id : String} {e : FetchError} {x x' : Record} : r.SentOn x x' →
      EndsAlike r r' (.ok ⟨id, .notFound e, [⟨.failure, x⟩]⟩) (.ok ⟨id, .notFound e, [⟨.failure, x'⟩]⟩)
  | storeError {id : String} {e : FetchError} {x : Record} :
      EndsAlike r r' (.ok ⟨id, .storeError e, [⟨.retry, x⟩]⟩) (.ok ⟨id, .storeError e, [⟨.retry, x⟩]⟩)
  | failed {e : Failure} : EndsAlike r r' (.error e) (.error e)

namespace Fetcher

variable {σ τ : Type}

theorem transfersFor_storeError (g : Fetcher τ) (r : Record) (id uuid : String) (e : FetchError) :
    g.transfersFor (some r) id uuid (.storeError e) =
      [⟨.retry, r.failedWith (retryMessage id g.transitUri (some r) e)⟩] := rfl

theorem transfersFor_failedWith (g : Fetcher τ) (r : Record) (message id uuid uuid' : String)
    (result : FetchResult) :
    EndsAlike r (r.failedWith message) (.ok ⟨id, result, g.transfersFor (some r) id uuid result⟩)
      (.ok ⟨id, result, g.transfersFor (some (r.failedWith message)) id uuid' result⟩) := by
  cases result with
  | found content cas expiry => exact .found (r.sentOn_failedWith message) rfl rfl
  | notFound e => exact .notFound (r.sentOn_withAttribute message (by decide) _)
  | storeError e =>
    rw [transfersFor_storeError, transfersFor_storeError, r.failedWith_failedWith, retryMessage_failedWith]
    exact .storeError

/-- How concluding ends does not depend on the record; the transfers do. -/
theorem exec_conclude (g : Fetcher τ) (id : String) (result : FetchResult) (u : τ) :
    ∃ (ended : Except Failure Unit) (v : τ), ∀ record, (g.conclude record id result).exec u =
      (ended.map fun _ => g.transfersFor record id (g.draw.run u).1 result, v) := by
  cases result with
  | found content cas expiry =>
    exact ⟨_, _, fun record => g.exec_conclude_found record id content cas expiry u rfl⟩
  | notFound e => exact ⟨.ok (), _, fun record => g.exec_conclude_notFound record id e u⟩
  | storeError e => exact ⟨.ok (), _, fun record => g.exec_conclude_storeError record id e u⟩

theorem fetch_eq_ok {g : Fetcher τ} {record : Option Record} {u v : τ} {o : FetchOutcome} {id : String}
    (hid : resolveDocumentId g.config g.resolver record = .ok id) (h : (g.fetch record).exec u = (.ok o, v)) :
    ∃ result uuid, FetchResult.ofRead ((g.read id).exec u).1 = .ok result ∧
      o = ⟨id, result, g.transfersFor record id uuid result⟩ := by
  rcases hread : (g.read id).exec u with ⟨answer, w⟩
  cases hresult : FetchResult.ofRead answer with
  | error e =>
    rw [exec_fetch_of_failure hid hread hresult] at h
    cases h
  | ok result =>
    rw [exec_fetch_of_result hid hread hresult] at h
    rcases hconclude : (g.conclude record id result).exec w with ⟨ended, w'⟩
    rw [hconclude] at h
    cases ended with
    | error e => cases h
    | ok transfers =>
      rw [conclude_eq_ok hconclude] at h
      cases h
      exact ⟨result, _, rfl, rfl⟩

variable {g : Fetcher τ} {r : Record} {message : String}

theorem fetch_failedWith
    (hsame : resolveDocumentId g.config g.resolver (some (r.failedWith message)) =
      resolveDocumentId g.config g.resolver (some r)) (u : τ) :
    EndsAlike r (r.failedWith message) ((g.fetch (some r)).exec u).1
        ((g.fetch (some (r.failedWith message))).exec u).1 ∧
      ((g.fetch (some (r.failedWith message))).exec u).2 = ((g.fetch (some r)).exec u).2 := by
  cases hid : resolveDocumentId g.config g.resolver (some r) with
  | error e =>
    rw [exec_fetch_of_fault hid, exec_fetch_of_fault (hsame.trans hid)]
    exact ⟨.failed, rfl⟩
  | ok id =>
    rcases hread : (g.read id).exec u with ⟨answer, v⟩
    cases hresult : FetchResult.ofRead answer with
    | error e =>
      rw [exec_fetch_of_failure hid hread hresult, exec_fetch_of_failure (hsame.trans hid) hread hresult]
      exact ⟨.failed, rfl⟩
    | ok result =>
      obtain ⟨ended, w, hconclude⟩ := g.exec_conclude id result v
      rw [exec_fetch_of_result hid hread hresult, exec_fetch_of_result (hsame.trans hid) hread hresult,
        hconclude, hconclude]
      refine ⟨?_, rfl⟩
      cases ended with
      | error e => exact .failed
      | ok _ => exact g.transfersFor_failedWith r message id _ _ result

theorem fetch_failedWith_drawn
    (hsame : resolveDocumentId g.config g.resolver (some (r.failedWith message)) =
      resolveDocumentId g.config g.resolver (some r)) {draw : StateM τ String} {u v v' : τ} {o o' : FetchOutcome}
    (h : (g.fetch (some r)).exec u = (.ok o, v))
    (h' : (Fetcher.fetch { g with draw } (some (r.failedWith message))).exec u = (.ok o', v')) :
    EndsAlike r (r.failedWith message) (.ok o) (.ok o') := by
  cases hid : resolveDocumentId g.config g.resolver (some r) with
  | error e =>
    rw [exec_fetch_of_fault hid] at h
    cases h
  | ok id =>
    obtain ⟨result, uuid, hresult, rfl⟩ := fetch_eq_ok hid h
    obtain ⟨result', uuid', hresult', rfl⟩ := fetch_eq_ok (g := { g with draw }) (hsame.trans hid) h'
    have hread : Fetcher.read { g with draw } id = g.read id := rfl
    rw [hread, hresult] at hresult'
    cases hresult'
    exact g.transfersFor_failedWith r message id uuid uuid' result

/-- A fetch that failed in the store sends one record on, to be tried again. Fetching for it from any store ends as
fetching for the first record from that store would end, where the default resolver finds the id and the expression
does not look at the message of the failure; where the two draw different uuids, nothing else is different. -/
theorem fetch_retried {f : Fetcher σ} {r : Record} {s t : σ} {first : FetchOutcome} {cause : FetchError}
    (hexpression : f.config.idExpression = "" ∨
      ∀ segments, Expression.compile f.config.idExpression = .ok segments →
        "error.message" ∉ Expression.references segments)
    (hfirst : (f.fetch (some r)).exec s = (.ok first, t)) (hcause : first.result = .storeError cause) :
    ∃ r', first.transfers = [⟨.retry, r'⟩] ∧
      ∀ {τ : Type} (g : Fetcher τ), g.config = f.config → g.resolver = .expressions →
        (∀ u, EndsAlike r r' ((g.fetch (some r)).exec u).1 ((g.fetch (some r')).exec u).1 ∧
          ((g.fetch (some r')).exec u).2 = ((g.fetch (some r)).exec u).2) ∧
        ∀ (draw : StateM τ String) (u v v' : τ) (o o' : FetchOutcome), (g.fetch (some r)).exec u = (.ok o, v) →
          (Fetcher.fetch { g with draw } (some r')).exec u = (.ok o', v') → EndsAlike r r' (.ok o) (.ok o') := by
  cases hid : resolveDocumentId f.config f.resolver (some r) with
  | error e =>
    rw [exec_fetch_of_fault hid] at hfirst
    cases hfirst
  | ok id =>
    obtain ⟨result, uuid, -, rfl⟩ := fetch_eq_ok hid hfirst
    obtain rfl : result = .storeError cause := hcause
    refine ⟨_, f.transfersFor_storeError r id uuid cause, ?_⟩
    intro τ g hconfig hresolver
    rw [← hconfig] at hexpression
    have hsame := resolveDocumentId_failedWith r (retryMessage id f.transitUri (some r) cause) hexpression
    rw [← hresolver] at hsame
    exact ⟨fetch_failedWith hsame, fun draw u v v' o o' => fetch_failedWith_drawn hsame⟩

/-- A fetcher whose ids are made from an attribute. -/
def keyed : Fetcher ScriptedStore :=
  { scripted with config := { scripted.config with idExpression := "$\x7bkey:trim()\x7d" } }

/-- A record that failed before is sent on with the new message in the place of the old one, and fetching for it
finds the document once the store is up again. -/
theorem fetch_retried_keyed :
    let r : Record := ⟨"one", [("error.message", "old"), ("key", " k ")], .empty⟩
    let down : ScriptedStore := { failure := some (.fetch (.say .connection "down")) }
    let up : ScriptedStore := { documents := [("k", [.text "doc", .int 7])] }
    "error.message" ∉ Expression.references [.reference ⟨"key", [⟨.trim, []⟩]⟩] ∧
    ∃ first t r', (keyed.fetch (some r)).exec down = (.ok first, t) ∧ first.transfers = [⟨.retry, r'⟩] ∧
      r'.attributes = [("error.message", "Getting document k from stub://main/users using Record[uuid=one, size=0] " ++
        "failed due to StoreConnectionError('down')"), ("key", " k ")] ∧
      EndsAlike r r' ((keyed.fetch (some r)).exec up).1 ((keyed.fetch (some r')).exec up).1 ∧
      ((keyed.fetch (some r)).exec up).1.map FetchOutcome.transfers =
        .ok [⟨.original, r⟩, ⟨.success, successRecord keyed.config "fresh" "k" (Text.encodeUtf8 "doc") (.int 7)
          (.int 0)⟩] := by
  have hmessage : retryMessage "k" keyed.transitUri (some ⟨"one", [("error.message", "old"), ("key", " k ")], .empty⟩)
      (.say .connection "down") = "Getting document k from stub://main/users using Record[uuid=one, size=0] " ++
        "failed due to StoreConnectionError('down')" := by decide +kernel
  intro r down up
  have hcompile : Expression.compile keyed.config.idExpression = .ok [.reference ⟨"key", [⟨.trim, []⟩]⟩] :=
    Expression.compile_eq_ok_iff.mpr (by decide +kernel)
  have hexpression : ∀ segments, Expression.compile keyed.config.idExpression = .ok segments →
      "error.message" ∉ Expression.references segments := by
    rintro segments h
    rw [hcompile] at h
    cases h
    decide
  have hid : resolveDocumentId keyed.config keyed.resolver (some r) = .ok "k" := by
    have hjoin : String.join ([Expression.Segment.reference ⟨"key", [⟨.trim, []⟩]⟩].map
        (Expression.Segment.evaluate [("error.message", "old"), ("key", " k ")])) = "k" := by decide +kernel
    have hvalue : keyed.resolver keyed.config.idExpression (some r.attributes) = .ok "k" := by
      change Except.mapError _ (Expression.run keyed.config.idExpression (some r.attributes)) = _
      rw [Expression.run_some hcompile, hjoin]
      rfl
    unfold resolveDocumentId
    rw [if_pos (by decide), Option.map_some, hvalue]
    rfl
  have hdown : (keyed.read "k").exec down =
      (.error (.fetch (.say .connection "down")), { down with calls := [("json", "k")] }) := rfl
  have hfirst := exec_fetch_of_result hid hdown (FetchResult.ofRead_store (by decide) (by decide))
  obtain ⟨r', hsent, hagain⟩ := fetch_retried (.inr hexpression) hfirst rfl
  have hup : (keyed.read "k").exec up =
      (.ok ⟨Text.encodeUtf8 "doc", .int 7, .int 0⟩, { up with calls := [("json", "k")] }) := rfl
  refine ⟨by decide, _, _, r', hfirst, hsent, ?_, ((hagain keyed rfl rfl).1 up).1, ?_⟩
  · obtain rfl : r.failedWith _ = r' := (Transfer.mk.inj (List.cons.inj hsent).1).2
    change Assoc.put "error.message" (retryMessage "k" keyed.transitUri (some r) (.say .connection "down"))
      r.attributes = _
    rw [hmessage]
    rfl
  · rw [exec_fetch_of_result hid hup rfl]
    rfl

end Fetcher

end DocFetch
