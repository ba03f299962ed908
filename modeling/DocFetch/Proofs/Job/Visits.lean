import DocFetch.Job.Invocation
import DocFetch.Proofs.Export.Routing
import DocFetch.Proofs.World.Actions

/-! # Visits

An invocation attends to its record and then hands on what came of it. A visit is what it settled: how it ended,
and the transfers. The transfers follow from the answer of the store and from the uuid drawn for a new record.
-/

namespace DocFetch

/-- An invocation with its record and what it handed on. -/
structure Visit where
  record : Option Record
  invocation : Invocation
  transfers : List Transfer

namespace Visit

/-- An invocation that a fault of the configuration ended. -/
def aborted (record : Option Record) (e : Failure) : Visit :=
  ⟨record, { status := .aborted, reason := some e.message }, []⟩

/-- An invocation that came to a result. -/
def completed (record : Option Record) (id : String) (result : FetchResult) (transfers : List Transfer) : Visit :=
  ⟨record, { status := .ofResult result, documentId := some id }, transfers⟩

end Visit

/-- Which answers a store may give for a document. -/
abbrev Answering := String → Except Failure (Document ByteArray) → Prop

theorem Failure.isKindOf_store_of_configuration {e : Failure} (h : e.isKindOf .configuration = true) :
    e.isKindOf .store = false := by
  have hfamily (k : ErrorFamily) (hk : .configuration ∈ k.lineage) : .store ∉ k.lineage := by
    induction k with
    | derived home name above ih =>
      simp only [ErrorFamily.lineage, List.mem_cons, reduceCtorEq, false_or] at hk ⊢
      exact ih hk
    | _ => revert hk; decide
  cases e with
  | fetch e =>
    have hmem : ErrorFamily.configuration ∈ e.family.lineage := by
      simpa [Failure.isKindOf, ErrorFamily.isKindOf] using h
    simpa [Failure.isKindOf, ErrorFamily.isKindOf] using hfamily _ hmem
  | _ => cases h

namespace Fetcher

variable {σ : Type} {f : Fetcher σ} {record : Option Record} {s t : σ} {v : Visit}

/-! ## One invocation -/

/-- What is left to do where a fetch failed. -/
def abort (f : Fetcher σ) (record : Option Record) (e : Failure) : Action σ Visit :=
  if e.isKindOf .configuration then do
    f.log (abortedEntry record e)
    return .aborted record e
  else Action.fail e

/-- The part of an invocation before it hands records on. -/
def attend (f : Fetcher σ) (record : Option Record) : Action σ Visit := do
  match ← (f.fetch record).attempt with
  | .ok o => return .completed record o.documentId o.result o.transfers
  | .error e => f.abort record e

theorem abort_eq_ok_iff {e : Failure} :
    (f.abort record e).exec s = (.ok v, t) ↔
      e.isKindOf .configuration = true ∧ v = .aborted record e ∧ t = ((f.log (abortedEntry record e)).run s).2 := by
  unfold abort
  split
  · rename_i he
    rw [Action.exec_bind_ok (Action.exec_lift _ s), Action.exec_pure]
    constructor
    · rintro ⟨⟩
      exact ⟨he, rfl, rfl⟩
    · rintro ⟨-, rfl, rfl⟩
      rfl
  · rename_i he
    exact ⟨nofun, fun h => absurd h.1 he⟩

theorem exec_attend_of_ok {o : FetchOutcome} (h : (f.fetch record).exec s = (.ok o, t)) :
    (f.attend record).exec s = (.ok (.completed record o.documentId o.result o.transfers), t) := by
  unfold attend
  rw [Action.exec_bind_ok (Action.exec_attempt _ s), h]
  rfl

theorem exec_attend_of_error {e : Failure} (h : (f.fetch record).exec s = (.error e, t)) :
    (f.attend record).exec s = (f.abort record e).exec t := by
  unfold attend
  rw [Action.exec_bind_ok (Action.exec_attempt _ s), h]

/-- An invocation attends to its record and then routes. -/
theorem invoke_eq (f : Fetcher σ) (record : Option Record) :
    f.invoke record = do
      let v ← Router.beside (f.attend record)
      Router.route v.transfers
      return v.invocation := by
  refine Action.ext fun ⟨r, s⟩ => ?_
  unfold invoke
  rw [Action.exec_bind_ok (Action.exec_attempt _ (r, s)), Router.exec_beside]
  have hbeside {ended : Except Failure Visit} {u : σ} (h : (f.attend record).exec s = (ended, u)) :
      (Router.beside (f.attend record)).exec (r, s) = (ended, r, u) := by
    rw [Router.exec_beside, h]
  rcases hfetch : (f.fetch record).exec s with ⟨ended, t⟩
  cases ended with
  | ok o =>
    rw [Action.exec_bind_ok (hbeside (exec_attend_of_ok hfetch))]
    rfl
  | error e =>
    have hattend := exec_attend_of_error hfetch
    cases he : e.isKindOf .configuration with
    | true =>
      rw [abort_eq_ok_iff.mpr ⟨he, rfl, rfl⟩] at hattend
      rw [Action.exec_bind_ok (hbeside hattend)]
      simp only [he, if_true]
      rfl
    | false =>
      unfold abort at hattend
      rw [he, if_neg Bool.false_ne_true, Action.exec_fail] at hattend
      rw [Action.exec_bind_error (hbeside hattend)]
      simp only [he, Bool.false_eq_true, if_false, Action.exec_fail]

/-! ## How an invocation ends -/

/-- The transfers for a result; `uuid` is that of a new record. -/
def transfersFor (f : Fetcher σ) (record : Option Record) (id uuid : String) : FetchResult → List Transfer
  | .found content cas expiry =>
    (record.map (Transfer.mk .original)).toList ++
      [⟨.success, successRecord f.config uuid id content cas expiry⟩]
  | .notFound e =>
    (record.map fun r =>
      ⟨.failure, r.withAttributes [(FetchAttribute.exception.name, e.family.qualifiedName)]⟩).toList
  | .storeError e =>
    (record.map fun r => ⟨.retry, r.withAttributes
      [(FetchAttribute.errorMessage.name, retryMessage id f.transitUri record e)]⟩).toList

theorem conclude_eq_ok {id : String} {result : FetchResult} {transfers : List Transfer}
    (h : (f.conclude record id result).exec s = (.ok transfers, t)) :
    transfers = f.transfersFor record id (f.draw.run s).1 result := by
  cases result with
  | found content cas expiry =>
    rw [exec_conclude_found f record id content cas expiry s rfl] at h
    rcases hreceive : (f.receive _ f.transitUri).exec (f.draw.run s).2 with ⟨ended, u⟩
    rw [hreceive] at h
    cases ended with
    | ok _ =>
      cases h
      rfl
    | error e => cases h
  | notFound e =>
    cases h
    rfl
  | storeError e =>
    cases h
    rfl

/-- What an invocation that returned settled and where it led: it had no id, its read failed, or what was read was
concluded or could not be. -/
inductive Attended (f : Fetcher σ) (record : Option Record) (s : σ) : Visit → σ → Prop
  | faulted {e : Failure} : resolveDocumentId f.config f.resolver record = .error e →
      e.isKindOf .configuration = true →
      Attended f record s (.aborted record e) ((f.log (abortedEntry record e)).run s).2
  | failed {id : String} {answer : Except Failure (Document ByteArray)} {t : σ} {e : Failure} :
      resolveDocumentId f.config f.resolver record = .ok id → (f.read id).exec s = (answer, t) →
      FetchResult.ofRead answer = .error e → e.isKindOf .configuration = true →
      Attended f record s (.aborted record e) ((f.log (abortedEntry record e)).run t).2
  | concluded {id : String} {answer : Except Failure (Document ByteArray)} {t u : σ} {result : FetchResult}
      {transfers : List Transfer} :
      resolveDocumentId f.config f.resolver record = .ok id → (f.read id).exec s = (answer, t) →
      FetchResult.ofRead answer = .ok result → (f.conclude record id result).exec t = (.ok transfers, u) →
      Attended f record s (.completed record id result transfers) u
  | unconcluded {id : String} {answer : Except Failure (Document ByteArray)} {t u : σ} {result : FetchResult}
      {e : Failure} :
      resolveDocumentId f.config f.resolver record = .ok id → (f.read id).exec s = (answer, t) →
      FetchResult.ofRead answer = .ok result → (f.conclude record id result).exec t = (.error e, u) →
      e.isKindOf .configuration = true →
      Attended f record s (.aborted record e) ((f.log (abortedEntry record e)).run u).2

theorem attend_eq_ok_iff : (f.attend record).exec s = (.ok v, t) ↔ f.Attended record s v t := by
  constructor
  · intro h
    cases hid : resolveDocumentId f.config f.resolver record with
    | error e =>
      rw [exec_attend_of_error (exec_fetch_of_fault hid s), abort_eq_ok_iff] at h
      obtain ⟨he, rfl, rfl⟩ := h
      exact .faulted hid he
    | ok id =>
      rcases hread : (f.read id).exec s with ⟨answer, u⟩
      cases hresult : FetchResult.ofRead answer with
      | error e =>
        rw [exec_attend_of_error (exec_fetch_of_failure hid hread hresult), abort_eq_ok_iff] at h
        obtain ⟨he, rfl, rfl⟩ := h
        exact .failed hid hread hresult he
      | ok result =>
        have hfetch := exec_fetch_of_result hid hread hresult
        rcases hconclude : (f.conclude record id result).exec u with ⟨ended, w⟩
        rw [hconclude] at hfetch
        cases ended with
        | ok transfers =>
          rw [exec_attend_of_ok hfetch] at h
          cases h
          exact .concluded hid hread hresult hconclude
        | error e =>
          rw [exec_attend_of_error hfetch, abort_eq_ok_iff] at h
          obtain ⟨he, rfl, rfl⟩ := h
          exact .unconcluded hid hread hresult hconclude he
  · intro h
    cases h with
    | faulted hid he =>
      rw [exec_attend_of_error (exec_fetch_of_fault hid s)]
      exact abort_eq_ok_iff.mpr ⟨he, rfl, rfl⟩
    | failed hid hread hresult he =>
      rw [exec_attend_of_error (exec_fetch_of_failure hid hread hresult)]
      exact abort_eq_ok_iff.mpr ⟨he, rfl, rfl⟩
    | concluded hid hread hresult hconclude =>
      have hfetch := exec_fetch_of_result hid hread hresult
      rw [hconclude] at hfetch
      exact exec_attend_of_ok hfetch
    | unconcluded hid hread hresult hconclude he =>
      have hfetch := exec_fetch_of_result hid hread hresult
      rw [hconclude] at hfetch
      rw [exec_attend_of_error hfetch]
      exact abort_eq_ok_iff.mpr ⟨he, rfl, rfl⟩

/-! ## Results -/

/-- How an invocation ends that fails before it has a result. -/
def faulted (record : Option Record) (e : Failure) : Except Failure Visit :=
  if e.isKindOf .configuration then .ok (.aborted record e) else .error e

/-- How an invocation ends where its store gives `answers` and a new record gets `uuid`. -/
def visit (f : Fetcher σ) (answers : String → Except Failure (Document ByteArray)) (uuid : String)
    (record : Option Record) : Except Failure Visit :=
  match resolveDocumentId f.config f.resolver record with
  | .error e => faulted record e
  | .ok id =>
    match FetchResult.ofRead (answers id) with
    | .error e => faulted record e
    | .ok result => .ok (.completed record id result (f.transfersFor record id uuid result))

variable {answers : String → Except Failure (Document ByteArray)} {uuid : String}

theorem visit_of_fault {e : Failure} (hid : resolveDocumentId f.config f.resolver record = .error e) :
    f.visit answers uuid record = faulted record e := by
  unfold visit
  rw [hid]

theorem visit_of_failure {id : String} {e : Failure} (hid : resolveDocumentId f.config f.resolver record = .ok id)
    (hresult : FetchResult.ofRead (answers id) = .error e) :
    f.visit answers uuid record = faulted record e := by
  unfold visit
  rw [hid]
  dsimp only
  rw [hresult]

theorem visit_of_result {id : String} {result : FetchResult}
    (hid : resolveDocumentId f.config f.resolver record = .ok id)
    (hresult : FetchResult.ofRead (answers id) = .ok result) :
    f.visit answers uuid record = .ok (.completed record id result (f.transfersFor record id uuid result)) := by
  unfold visit
  rw [hid]
  dsimp only
  rw [hresult]

theorem visit_congr {answers' : String → Except Failure (Document ByteArray)}
    (h : ∀ id, resolveDocumentId f.config f.resolver record = .ok id → answers id = answers' id) :
    f.visit answers uuid record = f.visit answers' uuid record := by
  unfold visit
  cases hid : resolveDocumentId f.config f.resolver record with
  | error e => rfl
  | ok id =>
    dsimp only
    rw [h id hid]

theorem faulted_eq_ok {e : Failure} (h : faulted record e = .ok v) :
    e.isKindOf .configuration = true ∧ v = .aborted record e := by
  unfold faulted at h
  split at h
  · rename_i he
    cases h
    exact ⟨he, rfl⟩
  · cases h

theorem visit_eq_ok (h : f.visit answers uuid record = .ok v) :
    (∃ e : Failure, e.isKindOf .configuration = true ∧ v = .aborted record e) ∨
    ∃ id result, resolveDocumentId f.config f.resolver record = .ok id ∧
      FetchResult.ofRead (answers id) = .ok result ∧
      v = .completed record id result (f.transfersFor record id uuid result) := by
  cases hid : resolveDocumentId f.config f.resolver record with
  | error e =>
    rw [visit_of_fault hid] at h
    exact .inl ⟨e, faulted_eq_ok h⟩
  | ok id =>
    cases hresult : FetchResult.ofRead (answers id) with
    | error e =>
      rw [visit_of_failure hid hresult] at h
      exact .inl ⟨e, faulted_eq_ok h⟩
    | ok result =>
      rw [visit_of_result hid hresult] at h
      cases h
      exact .inr ⟨id, result, rfl, hresult, rfl⟩

/-! ## What calls keep -/

/-- Whether a visit follows from an answer that the store may give. -/
def Settles (f : Fetcher σ) (gives : Answering) (v : Visit) : Prop :=
  ∃ answer uuid, (∀ id, resolveDocumentId f.config f.resolver v.record = .ok id → gives id answer) ∧
    f.visit (fun _ => answer) uuid v.record = .ok v

/-- A fetcher whose store answers as `gives` tells, and whose calls keep what holds by the visits so far and by what
was routed. -/
structure Upholds (f : Fetcher σ) (gives : Answering) (holds : List Visit → Routed → σ → Prop) : Prop where
  read : ∀ {d l s t id answer}, holds d l s → (f.read id).exec s = (answer, t) → gives id answer ∧ holds d l t
  concluded : ∀ {d l s t record id result transfers}, holds d l s →
    (f.conclude record id result).exec s = (.ok transfers, t) → holds (d ++ [.completed record id result transfers]) l t
  unconcluded : ∀ {d l s t record id result e}, holds d l s → (f.conclude record id result).exec s = (.error e, t) →
    e.isKindOf .configuration = true → gives id (.error e) ∧ holds d l t
  aborted : ∀ {d l s} record e, holds d l s →
    holds (d ++ [.aborted record e]) l ((f.log (abortedEntry record e)).run s).2

section Settles

variable {gives : Answering} {id : String} {answer : Except Failure (Document ByteArray)} {e : Failure}

theorem settles_of_fault (hid : resolveDocumentId f.config f.resolver record = .error e)
    (he : e.isKindOf .configuration = true) : f.Settles gives (.aborted record e) := by
  refine ⟨.error e, "", fun id hok => ?_, (visit_of_fault hid).trans (if_pos he)⟩
  exact absurd (hid.symm.trans hok) nofun

theorem gives_of_resolved (hid : resolveDocumentId f.config f.resolver record = .ok id) (hgives : gives id answer)
    (id' : String) (hid' : resolveDocumentId f.config f.resolver record = .ok id') : gives id' answer := by
  cases hid.symm.trans hid'
  exact hgives

theorem settles_of_failure (hid : resolveDocumentId f.config f.resolver record = .ok id) (hgives : gives id answer)
    (hresult : FetchResult.ofRead answer = .error e) (he : e.isKindOf .configuration = true) :
    f.Settles gives (.aborted record e) :=
  ⟨answer, "", gives_of_resolved hid hgives, (visit_of_failure hid hresult).trans (if_pos he)⟩

theorem settles_of_given (hid : resolveDocumentId f.config f.resolver record = .ok id) (hgives : gives id (.error e))
    (he : e.isKindOf .configuration = true) : f.Settles gives (.aborted record e) :=
  settles_of_failure hid hgives (FetchResult.ofRead_outside (Failure.isKindOf_store_of_configuration he)) he

theorem settles_of_concluded {result : FetchResult} {transfers : List Transfer}
    (hid : resolveDocumentId f.config f.resolver record = .ok id) (hgives : gives id answer)
    (hresult : FetchResult.ofRead answer = .ok result)
    (hconclude : (f.conclude record id result).exec s = (.ok transfers, t)) :
    f.Settles gives (.completed record id result transfers) := by
  rw [conclude_eq_ok hconclude]
  exact ⟨answer, _, gives_of_resolved hid hgives, visit_of_result hid hresult⟩

end Settles

namespace Upholds

variable {gives gives' : Answering} {holds holds' : List Visit → Routed → σ → Prop} {d : List Visit} {l : Routed}

theorem trivial (f : Fetcher σ) : f.Upholds (fun _ _ => True) fun _ _ _ => True :=
  ⟨fun _ _ => ⟨True.intro, True.intro⟩, fun _ _ => True.intro, fun _ _ _ => ⟨True.intro, True.intro⟩,
    fun _ _ _ => True.intro⟩

theorem and (h : f.Upholds gives holds) (h' : f.Upholds gives' holds') :
    f.Upholds gives fun d l s => holds d l s ∧ holds' d l s where
  read hl hread := ⟨(h.read hl.1 hread).1, (h.read hl.1 hread).2, (h'.read hl.2 hread).2⟩
  concluded hl hconclude := ⟨h.concluded hl.1 hconclude, h'.concluded hl.2 hconclude⟩
  unconcluded hl hconclude he :=
    ⟨(h.unconcluded hl.1 hconclude he).1, (h.unconcluded hl.1 hconclude he).2, (h'.unconcluded hl.2 hconclude he).2⟩
  aborted record e hl := ⟨h.aborted record e hl.1, h'.aborted record e hl.2⟩

/-- An invocation that returned settled what an answer of its store leads to, and kept what holds. -/
theorem attended (h : f.Upholds gives holds) (hl : holds d l s) (hv : f.Attended record s v t) :
    f.Settles gives v ∧ holds (d ++ [v]) l t := by
  cases hv with
  | faulted hid he => exact ⟨settles_of_fault hid he, h.aborted _ _ hl⟩
  | failed hid hread hresult he =>
    obtain ⟨hgives, hheld⟩ := h.read hl hread
    exact ⟨settles_of_failure hid hgives hresult he, h.aborted _ _ hheld⟩
  | concluded hid hread hresult hconclude =>
    obtain ⟨hgives, hheld⟩ := h.read hl hread
    exact ⟨settles_of_concluded hid hgives hresult hconclude, h.concluded hheld hconclude⟩
  | unconcluded hid hread hresult hconclude he =>
    -- A store that fails with the same fault would have ended the invocation in the same way.
    obtain ⟨hgives, hheld⟩ := h.unconcluded (h.read hl hread).2 hconclude he
    exact ⟨settles_of_given hid hgives he, h.aborted _ _ hheld⟩

end Upholds

theorem Attended.record_eq (h : f.Attended record s v t) : v.record = record := by
  cases h <;> rfl

/-! ## Where an invocation leads -/

variable {R : σ → σ → Prop}

theorem moves_read [Std.Refl R] [IsTrans σ R] (hstore : f.store.Reads R) (id : String) : (f.read id).Moves R := by
  unfold read
  split
  · exact (hstore.getJson id).bind fun _ => .pure _
  · exact hstore.getBinary id

/-- A fetcher that leads along a relation: its store, its source of uuids, its events and its log do. -/
structure Leads (f : Fetcher σ) (R : σ → σ → Prop) : Prop where
  store : f.store.Reads R
  draw : ∀ s, R s (f.draw.run s).2
  receive : ∀ r location, (f.receive r location).Moves R
  log : ∀ e s, R s ((f.log e).run s).2

namespace Leads

variable [Std.Refl R] [IsTrans σ R]

theorem conclude (h : f.Leads R) (record : Option Record) (id : String) (result : FetchResult) :
    (f.conclude record id result).Moves R := by
  cases result with
  | found content cas expiry =>
    exact (Action.Moves.lift h.draw).bind fun _ => (h.receive _ _).bind fun _ => .pure _
  | notFound e => exact (Action.Moves.lift (h.log _)).bind fun _ => .pure _
  | storeError e => exact (Action.Moves.lift (h.log _)).bind fun _ => .pure _

theorem upholds {holds : Routed → σ → Prop} (h : f.Leads R) (hstable : ∀ {l s t}, holds l s → R s t → holds l t) :
    f.Upholds (fun _ _ => True) fun _ => holds where
  read hl hread := ⟨True.intro, hstable hl ((moves_read h.store _).of_exec hread)⟩
  concluded hl hconclude := hstable hl ((h.conclude _ _ _).of_exec hconclude)
  unconcluded hl hconclude _ := ⟨True.intro, hstable hl ((h.conclude _ _ _).of_exec hconclude)⟩
  aborted _ _ hl := hstable hl (h.log _ _)

end Leads

/-! ## A batch -/

/-- Visits of a batch, one after the other. -/
inductive Goes (f : Fetcher σ) : List (Option Record) → Router σ × σ → List Visit → Router σ × σ → Prop
  | nil {x : Router σ × σ} : Goes f [] x [] x
  | cons {record : Option Record} {rest : List (Option Record)} {r : Router σ} {s t : σ} {v : Visit}
      {x y : Router σ × σ} {vs : List Visit} : (f.attend record).exec s = (.ok v, t) →
      (Router.route v.transfers).exec (r, t) = (.ok (), x) → Goes f rest x vs y →
      Goes f (record :: rest) (r, s) (v :: vs) y

theorem invoke_eq_ok {r : Router σ} {i : Invocation} {x : Router σ × σ}
    (h : (f.invoke record).exec (r, s) = (.ok i, x)) :
    ∃ v t, (f.attend record).exec s = (.ok v, t) ∧ (Router.route v.transfers).exec (r, t) = (.ok (), x) ∧
      v.invocation = i := by
  rw [invoke_eq] at h
  obtain ⟨v, ⟨r', t⟩, hbeside, h⟩ := Action.exec_bind_eq_ok h
  obtain ⟨_, y, hroute, h⟩ := Action.exec_bind_eq_ok h
  cases h
  rw [Router.exec_beside, Prod.mk.injEq, Prod.mk.injEq] at hbeside
  obtain ⟨hv, rfl, rfl⟩ := hbeside
  exact ⟨v, _, Prod.ext hv rfl, hroute, rfl⟩

theorem exec_invoke {r : Router σ} {x : Router σ × σ} (hattend : (f.attend record).exec s = (.ok v, t))
    (hroute : (Router.route v.transfers).exec (r, t) = (.ok (), x)) :
    (f.invoke record).exec (r, s) = (.ok v.invocation, x) := by
  have hbeside : (Router.beside (f.attend record)).exec (r, s) = (.ok v, r, t) := by
    rw [Router.exec_beside, hattend]
  rw [invoke_eq, Action.exec_bind_ok hbeside, Action.exec_bind_ok hroute, Action.exec_pure]

/-- A batch returns when every visit does. -/
theorem invokeAll_eq_ok_iff {batch : List (Option Record)} {x y : Router σ × σ} {is : List Invocation} :
    (f.invokeAll batch).exec x = (.ok is, y) ↔ ∃ vs, f.Goes batch x vs y ∧ is = vs.map Visit.invocation := by
  unfold invokeAll
  induction batch generalizing x is with
  | nil =>
    constructor
    · intro h
      cases h
      exact ⟨[], .nil, rfl⟩
    · rintro ⟨vs, hgoes, rfl⟩
      cases hgoes
      rfl
  | cons record rest ih =>
    rw [List.mapM_cons]
    constructor
    · intro h
      obtain ⟨i, ⟨r, s⟩, hinvoke, h⟩ := Action.exec_bind_eq_ok h
      obtain ⟨js, z, hrest, h⟩ := Action.exec_bind_eq_ok h
      cases h
      obtain ⟨vs, hgoes, rfl⟩ := ih.mp hrest
      obtain ⟨v, t, hattend, hroute, rfl⟩ := invoke_eq_ok hinvoke
      exact ⟨v :: vs, .cons hattend hroute hgoes, rfl⟩
    · rintro ⟨vs, hgoes, rfl⟩
      cases hgoes with
      | cons hattend hroute hrest =>
        rw [Action.exec_bind_ok (exec_invoke hattend hroute), Action.exec_bind_ok (ih.mpr ⟨_, hrest, rfl⟩)]
        rfl

/-! ## What a batch keeps -/

variable {batch : List (Option Record)} {vs : List Visit} {x y : Router σ × σ}

theorem Goes.records (h : f.Goes batch x vs y) : vs.map Visit.record = batch := by
  induction h with
  | nil => rfl
  | cons hattend hroute hrest ih => rw [List.map_cons, (attend_eq_ok_iff.mp hattend).record_eq, ih]

/-- What holds by the visits so far and by what was routed, through calls and through writing, holds after a batch.
The batch counts what it hands over. -/
theorem Goes.holds {gives : Answering} {holds : List Visit → Routed → σ → Prop} {d : List Visit} {l : Routed}
    (h : f.Goes batch x vs y) (hkeeps : ∀ d, Router.Keeps x.1.exporters (holds d)) (hupholds : f.Upholds gives holds)
    (hl : holds d l x.2) :
    y.1 = x.1.counted (vs.flatMap Visit.transfers) ∧ holds (d ++ vs) (l.add (vs.flatMap Visit.transfers)) y.2 := by
  induction h generalizing d l with
  | nil =>
    rw [List.flatMap_nil, l.add_nil, List.append_nil]
    exact ⟨(Router.counted_nil _).symm, hl⟩
  | @cons record rest r s t v x y vs hexec hroute hrest ih =>
    have hattended := (hupholds.attended hl (attend_eq_ok_iff.mp hexec)).2
    obtain ⟨hrouter, hholds⟩ := Router.route_eq_ok (hkeeps _) hattended hroute
    rw [hrouter] at ih
    obtain ⟨hcounted, hheld⟩ := ih hkeeps hholds
    rw [List.flatMap_cons, l.add_append, Router.counted_append, List.append_cons]
    exact ⟨hcounted, hheld⟩

theorem Goes.settles (h : f.Goes batch x vs y) : ∀ v ∈ vs, f.Settles (fun _ _ => True) v := by
  induction h with
  | nil => exact fun v hv => absurd hv List.not_mem_nil
  | cons hattend hroute hrest ih =>
    have hattended := (Upholds.trivial f).attended (d := []) (l := .nothing) True.intro (attend_eq_ok_iff.mp hattend)
    exact List.forall_mem_cons.mpr ⟨hattended.1, ih⟩

end Fetcher

end DocFetch
