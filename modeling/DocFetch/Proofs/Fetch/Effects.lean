import DocFetch.Fetch.Basic

/-! # Effects of a fetch

A traced fetcher does what the fetcher does and keeps a list of the calls that it makes of its store, its
provenance events and its log. A fault of the configuration comes before all of them. After it there is one
request to the store, and the result decides the one call that may follow.
-/

namespace DocFetch

variable {σ α : Type}

/-! ## The id -/

/-- How the id of a document is found, or why it is not. -/
inductive Resolution (config : FetchConfig) (resolver : Resolver) (record : Option Record) :
    Except Failure String → Prop
  | value {id : String} : config.idExpression ≠ "" →
      resolver config.idExpression (record.map Record.attributes) = .ok id → id ≠ "" →
      Resolution config resolver record (.ok id)
  | noValue : config.idExpression ≠ "" →
      resolver config.idExpression (record.map Record.attributes) = .ok "" →
      Resolution config resolver record (.error (idFault record))
  | passed {e : Failure} : config.idExpression ≠ "" →
      resolver config.idExpression (record.map Record.attributes) = .error e →
      e.isKindOf .configuration = true → Resolution config resolver record (.error e)
  | turned {e : Failure} : config.idExpression ≠ "" →
      resolver config.idExpression (record.map Record.attributes) = .error e →
      e.isKindOf .configuration = false → Resolution config resolver record (.error (idFault record))
  | payload {r : Record} {id : String} : config.idExpression = "" → record = some r →
      r.payload = Text.encodeUtf8 id → id ≠ "" → Resolution config resolver record (.ok id)
  | noPayload {r : Record} : config.idExpression = "" → record = some r →
      r.payload = Text.encodeUtf8 "" → Resolution config resolver record (.error (idFault record))
  | undecodable {r : Record} : config.idExpression = "" → record = some r →
      (∀ id, r.payload ≠ Text.encodeUtf8 id) → Resolution config resolver record (.error (idFault record))
  | noRecord : config.idExpression = "" → record = none →
      Resolution config resolver record (.error (idFault record))

theorem resolution (config : FetchConfig) (resolver : Resolver) (record : Option Record) :
    Resolution config resolver record (resolveDocumentId config resolver record) := by
  unfold resolveDocumentId
  by_cases hexpression : config.idExpression = ""
  · rw [if_neg (by simpa using hexpression)]
    cases record with
    | none => exact .noRecord hexpression rfl
    | some r =>
      rw [Option.bind_some]
      cases htext : r.text? with
      | none =>
        refine .undecodable hexpression rfl ?_
        intro id hid
        rw [Record.text?, hid, Text.decodeUtf8?_encodeUtf8] at htext
        cases htext
      | some id =>
        have hpayload := (Text.encodeUtf8_of_decodeUtf8? htext).symm
        by_cases hid : id = ""
        · subst hid
          exact .noPayload hexpression rfl hpayload
        · simp only [String.isEmpty_iff, hid, if_false]
          exact .payload hexpression rfl hpayload hid
  · rw [if_pos hexpression]
    cases hvalue : resolver config.idExpression (record.map Record.attributes) with
    | ok id =>
      by_cases hid : id = ""
      · subst hid
        exact .noValue hexpression hvalue
      · simp only [String.isEmpty_iff, hid, if_false]
        exact .value hexpression hvalue hid
    | error e =>
      cases hkind : e.isKindOf .configuration with
      | true =>
        simp only [hkind, if_true]
        exact .passed hexpression hvalue hkind
      | false =>
        simp only [hkind, Bool.false_eq_true, if_false]
        exact .turned hexpression hvalue hkind

theorem Resolution.ne_empty {config : FetchConfig} {resolver : Resolver} {record : Option Record}
    {id : String} (h : Resolution config resolver record (.ok id)) : id ≠ "" := by
  cases h with
  | value _ _ hid => exact hid
  | payload _ _ _ hid => exact hid

theorem Resolution.isKindOf {config : FetchConfig} {resolver : Resolver} {record : Option Record}
    {e : Failure} (h : Resolution config resolver record (.error e)) : e.isKindOf .configuration = true := by
  cases h with
  | passed _ _ hkind => exact hkind
  | _ => rfl

/-! ## The calls -/

/-- A call of a fetch to its store, to where it reports records, or to its log. -/
inductive Effect
  | request (type : DocumentType) (id : String)
  | close
  | receive (record : Record) (location : String)
  | log (entry : Log.Entry)

/-- Does the action and keeps the call after those before it. -/
def marking (call : Effect) (a : Action σ α) : Action (σ × List Effect) α :=
  Action.ofFunction fun s => let (r, t) := a.exec s.1; (r, t, s.2 ++ [call])

@[simp] theorem exec_marking (call : Effect) (a : Action σ α) (s : σ) (calls : List Effect) :
    (marking call a).exec (s, calls) = ((a.exec s).1, (a.exec s).2, calls ++ [call]) := rfl

namespace Fetcher

/-- The fetcher that also keeps its calls. -/
def traced (f : Fetcher σ) : Fetcher (σ × List Effect) where
  config := f.config
  store := {
    scheme := f.store.scheme
    bucket := f.store.bucket
    getJson := fun id => marking (.request .json id) (f.store.getJson id)
    getBinary := fun id => marking (.request .binary id) (f.store.getBinary id)
    close := marking .close f.store.close }
  resolver := f.resolver
  draw := fun s => let (uuid, t) := f.draw.run s.1; (uuid, t, s.2)
  receive := fun record location => marking (.receive record location) (f.receive record location)
  log := fun entry s => let (u, t) := (f.log entry).run s.1; (u, t, s.2 ++ [.log entry])

/-- The calls after the request, by what the read gave and how the fetch ended. -/
inductive Followed (f : Fetcher σ) (id : String) :
    Except Failure FetchResult → Except Failure FetchOutcome → List Effect → Prop
  | found {uuid : String} {content : ByteArray} {cas expiry : Number} {out : Record}
      {transfers : List Transfer} : out = successRecord f.config uuid id content cas expiry →
      recordsFor transfers .success = [out] →
      Followed f id (.ok (.found content cas expiry)) (.ok ⟨id, .found content cas expiry, transfers⟩)
        [.receive out f.transitUri]
  | unreported {uuid : String} {content : ByteArray} {cas expiry : Number} {out : Record} {e : Failure}
      {s : σ} : out = successRecord f.config uuid id content cas expiry →
      ((f.receive out f.transitUri).exec s).1 = .error e →
      Followed f id (.ok (.found content cas expiry)) (.error e) [.receive out f.transitUri]
  | notFound {e : FetchError} {entry : Log.Entry} {transfers : List Transfer} : entry.level = .warning →
      Followed f id (.ok (.notFound e)) (.ok ⟨id, .notFound e, transfers⟩) [.log entry]
  | storeError {e : FetchError} {entry : Log.Entry} {transfers : List Transfer} : entry.level = .error →
      Followed f id (.ok (.storeError e)) (.ok ⟨id, .storeError e, transfers⟩) [.log entry]
  | passed {e : Failure} : Followed f id (.error e) (.error e) []

theorem exec_read_traced (f : Fetcher σ) (id : String) (s : σ) (calls : List Effect) :
    (f.traced.read id).exec (s, calls) =
      (((f.read id).exec s).1, ((f.read id).exec s).2, calls ++ [.request f.config.documentType id]) := by
  cases htype : f.config.documentType with
  | json =>
    rw [exec_read_json htype, exec_read_json (f := f.traced) htype]
    rfl
  | binary =>
    rw [exec_read_binary htype, exec_read_binary (f := f.traced) htype]
    rfl

theorem exec_conclude_traced (f : Fetcher σ) (record : Option Record) (id : String) (result : FetchResult)
    (s : σ) (before : List Effect) :
    ∃ calls,
      (f.traced.conclude record id result).exec (s, before) =
        (((f.conclude record id result).exec s).1, ((f.conclude record id result).exec s).2,
          before ++ calls) ∧
      f.Followed id (.ok result) (((f.conclude record id result).exec s).1.map (⟨id, result, ·⟩)) calls := by
  cases result with
  | found content cas expiry =>
    obtain ⟨out, hout⟩ :
      ∃ out, out = successRecord f.config (f.draw.run s).1 id content cas expiry := ⟨_, rfl⟩
    refine ⟨[.receive out f.transitUri], ?_, ?_⟩
    · rw [exec_conclude_found f record id content cas expiry s hout,
        exec_conclude_found f.traced record id content cas expiry (s, before) hout]
      rfl
    · rw [exec_conclude_found f record id content cas expiry s hout]
      cases hreceive : ((f.receive out f.transitUri).exec (f.draw.run s).2).1 with
      | error e => exact .unreported hout hreceive
      | ok _ =>
        refine .found hout ?_
        cases record with
        | none => rfl
        | some r => rfl
  | notFound e =>
    rw [exec_conclude_notFound, exec_conclude_notFound]
    exact ⟨_, rfl, .notFound rfl⟩
  | storeError e =>
    rw [exec_conclude_storeError, exec_conclude_storeError]
    exact ⟨_, rfl, .storeError rfl⟩

private theorem fetch_traced (f : Fetcher σ) (record : Option Record) {id : String}
    (hid : resolveDocumentId f.config f.resolver record = .ok id) (s : σ) :
    ∃ calls,
      (f.traced.fetch record).exec (s, []) =
        (((f.fetch record).exec s).1, ((f.fetch record).exec s).2,
          .request f.config.documentType id :: calls) ∧
      f.Followed id (FetchResult.ofRead ((f.read id).exec s).1) ((f.fetch record).exec s).1 calls := by
  rcases hread : (f.read id).exec s with ⟨answer, t⟩
  have htraced : (f.traced.read id).exec (s, []) =
      (answer, t, [.request f.config.documentType id]) := by
    rw [exec_read_traced, hread]
    rfl
  cases hresult : FetchResult.ofRead answer with
  | error e =>
    rw [exec_fetch_of_failure hid hread hresult, exec_fetch_of_failure (f := f.traced) hid htraced hresult]
    exact ⟨[], rfl, .passed⟩
  | ok result =>
    obtain ⟨calls, hconclude, hfollowed⟩ :=
      f.exec_conclude_traced record id result t [.request f.config.documentType id]
    rw [exec_fetch_of_result hid hread hresult, exec_fetch_of_result (f := f.traced) hid htraced hresult,
      hconclude]
    exact ⟨calls, rfl, hfollowed⟩

/-- The id of a fetch is a nonempty text or the fault of a configuration, found as the table says. A fault is
all that the fetch does. After an id it asks the store for it once, as the settings say, and what was read
decides the calls that follow. Keeping the calls changes nothing else. -/
theorem fetch_effects (f : Fetcher σ) (record : Option Record) :
    Resolution f.config f.resolver record (resolveDocumentId f.config f.resolver record) ∧
    ((∃ e, resolveDocumentId f.config f.resolver record = .error e ∧ e.isKindOf .configuration = true ∧
        ∀ s, (f.traced.fetch record).exec (s, []) = (.error e, s, [])) ∨
      ∃ id, resolveDocumentId f.config f.resolver record = .ok id ∧ id ≠ "" ∧
        ∀ s, ∃ calls,
          ((f.traced.fetch record).exec (s, [])).2.2 = .request f.config.documentType id :: calls ∧
          f.Followed id (FetchResult.ofRead ((f.read id).exec s).1)
            ((f.traced.fetch record).exec (s, [])).1 calls) ∧
    ∀ s, (f.fetch record).exec s =
      (((f.traced.fetch record).exec (s, [])).1, ((f.traced.fetch record).exec (s, [])).2.1) := by
  have hresolution := resolution f.config f.resolver record
  cases hid : resolveDocumentId f.config f.resolver record with
  | error e =>
    rw [hid] at hresolution
    refine ⟨hresolution, .inl ⟨e, rfl, hresolution.isKindOf, ?_⟩, ?_⟩
    · intro s
      exact exec_fetch_of_fault (f := f.traced) hid (s, [])
    · intro s
      rw [exec_fetch_of_fault hid, exec_fetch_of_fault (f := f.traced) hid]
  | ok id =>
    rw [hid] at hresolution
    refine ⟨hresolution, .inr ⟨id, rfl, hresolution.ne_empty, ?_⟩, ?_⟩
    · intro s
      obtain ⟨calls, htraced, hfollowed⟩ := f.fetch_traced record hid s
      rw [htraced]
      exact ⟨calls, rfl, hfollowed⟩
    · intro s
      obtain ⟨calls, htraced, -⟩ := f.fetch_traced record hid s
      rw [htraced]

end Fetcher

end DocFetch
