import DocFetch.Proofs.Fetch.Effects
import DocFetch.Proofs.Job.Conservation
import DocFetch.Proofs.World.Faults

/-! # Runs that keep their calls

A batch goes with a traced fetcher as it goes without. The records that it reports on the way are those that it
sends to the channel of new records, one by one.
-/

namespace DocFetch

/-- A record that a call reports, with where it came from. -/
def Effect.received? : Effect → Option (Record × String)
  | receive record location => some (record, location)
  | _ => none

/-- The records that calls report. -/
def Effect.received (calls : List Effect) : List (Record × String) := calls.filterMap received?

/-- The router beside a list of calls. -/
def Router.traced {σ : Type} (r : Router σ) : Router (σ × List Effect) := r.zoom Prod.fst fun s t => (t, s.2)

namespace Fetcher

variable {σ : Type} {f : Fetcher σ} {record : Option Record} {s t : σ} {v : Visit}

theorem fails_conclude (hreceive : ∀ r location, (f.receive r location).Fails Failure.IsPlatform)
    (record : Option Record) (id : String) (result : FetchResult) : (f.conclude record id result).Fails Failure.IsPlatform := by
  cases result with
  | found content cas expiry => exact .bind (.lift _) fun _ => .bind (hreceive _ _) fun _ => .pure _
  | notFound e => exact .bind (.lift _) fun _ => .pure _
  | storeError e => exact .bind (.lift _) fun _ => .pure _

theorem received_of_followed {id uuid : String} {result : FetchResult} {calls : List Effect}
    (h : f.Followed id (.ok result) (.ok ⟨id, result, f.transfersFor record id uuid result⟩) calls) :
    Effect.received calls =
      (recordsFor (f.transfersFor record id uuid result) .success).map (·, f.transitUri) := by
  cases h with
  | found hout htransfers =>
    rw [htransfers]
    rfl
  | notFound _ => cases record <;> rfl
  | storeError _ => cases record <;> rfl

theorem Attended.traced (h : f.Attended record s v t)
    (hreceive : ∀ r location, (f.receive r location).Fails Failure.IsPlatform) (before : List Effect) :
    ∃ calls, f.traced.Attended record (s, before) v (t, before ++ calls) ∧
      Effect.received calls = (recordsFor v.transfers .success).map (·, f.transitUri) := by
  have hread {id : String} {answer : Except Failure (Document ByteArray)} {t : σ}
      (h : (f.read id).exec s = (answer, t)) :
      (f.traced.read id).exec (s, before) = (answer, t, before ++ [.request f.config.documentType id]) := by
    rw [exec_read_traced, h]
  cases h with
  | @faulted e hid he => exact ⟨[.log (abortedEntry record e)], .faulted hid he, rfl⟩
  | @failed id _ _ e hid hanswer hresult he =>
    refine ⟨[.request f.config.documentType id, .log (abortedEntry record e)], ?_, rfl⟩
    have hfailed := Attended.failed (f := f.traced) hid (hread hanswer) hresult he
    rwa [List.append_cons]
  | @concluded id _ _ _ result transfers hid hanswer hresult hconclude =>
    obtain ⟨calls, htraced, hfollowed⟩ :=
      f.exec_conclude_traced record id result _ (before ++ [.request f.config.documentType id])
    rw [hconclude] at htraced hfollowed
    refine ⟨.request f.config.documentType id :: calls, ?_, ?_⟩
    · rw [List.append_cons]
      exact .concluded (f := f.traced) hid (hread hanswer) hresult htraced
    · rw [conclude_eq_ok hconclude] at hfollowed ⊢
      change Effect.received calls = _
      exact received_of_followed hfollowed
  | unconcluded hid hanswer hresult hconclude he =>
    have hplatform := fails_conclude hreceive record _ _ _ _ _ hconclude
    exact absurd (he.symm.trans (hplatform.isKindOf .configuration)) (by decide)

/-! ## Batches -/

theorem lens_calls : Action.Lens Prod.fst fun (s : σ × List Effect) t => (t, s.2) :=
  ⟨fun _ _ => rfl, fun _ => rfl, fun _ _ _ => rfl⟩

/-- A traced batch goes as the batch does. It reports the new records that it hands on, in their order. -/
theorem Goes.traced {batch : List (Option Record)} {x y : Router σ × σ} {vs : List Visit} (h : f.Goes batch x vs y)
    (hreceive : ∀ r location, (f.receive r location).Fails Failure.IsPlatform) (before : List Effect) :
    ∃ calls, f.traced.Goes batch (x.1.traced, x.2, before) vs (y.1.traced, y.2, before ++ calls) ∧
      Effect.received calls = (recordsFor (vs.flatMap Visit.transfers) .success).map (·, f.transitUri) := by
  induction h generalizing before with
  | nil =>
    refine ⟨[], ?_, rfl⟩
    rw [List.append_nil]
    exact .nil
  | @cons record rest r s t v x y vs hattend hroute hrest ih =>
    obtain ⟨calls, hattended, hreceived⟩ := (attend_eq_ok_iff.mp hattend).traced hreceive before
    obtain ⟨calls', hgoes, hreceived'⟩ := ih (before ++ calls)
    have hroute' : (Router.route v.transfers).exec (r.traced, t, before ++ calls) =
        (.ok (), x.1.traced, x.2, before ++ calls) :=
      Router.exec_route_zoom (s := (t, before ++ calls)) lens_calls hroute
    refine ⟨calls ++ calls', ?_, ?_⟩
    · rw [← List.append_assoc]
      exact .cons (attend_eq_ok_iff.mpr hattended) hroute' hgoes
    · rw [Effect.received, List.filterMap_append, List.flatMap_cons, Routed.recordsFor_append, List.map_append,
        ← hreceived, ← hreceived']
      rfl

end Fetcher

namespace Runner

variable {σ : Type} {f : Fetcher σ}

theorem Went.traced {owned : Bool} {batch : List (Option Record)} {x y : Router σ × σ} {vs : List Visit}
    {closed t : σ} (h : Went f owned batch x vs y closed t)
    (hreceive : ∀ r location, (f.receive r location).Fails Failure.IsPlatform) :
    ∃ calls calls', Went f.traced owned batch (x.1.traced, x.2, []) vs (y.1.traced, y.2, calls) (closed, calls)
        (t, calls') ∧
      Effect.received calls' = (recordsFor (vs.flatMap Visit.transfers) .success).map (·, f.transitUri) := by
  obtain ⟨calls, hgoes, hreceived⟩ := h.goes.traced hreceive []
  have hclosing : (y.1.traced).closing.exec (y.2, calls) = (.ok (), closed, calls) := by
    rw [Router.traced, Router.closing_zoom Fetcher.lens_calls, Action.exec_zoom, h.closing]
  have hstore := h.store
  cases owned with
  | false =>
    rw [if_neg Bool.false_ne_true] at hstore
    subst hstore
    exact ⟨calls, calls, ⟨hgoes, hclosing, rfl⟩, hreceived⟩
  | true =>
    rw [if_pos rfl] at hstore
    refine ⟨calls, calls ++ [.close], ⟨hgoes, hclosing, ?_⟩, ?_⟩
    · rw [if_pos rfl]
      exact (exec_marking .close f.store.close closed calls).trans (by rw [hstore])
    · rw [Effect.received, List.filterMap_append, ← hreceived]
      exact List.append_nil _

/-- A traced run of a batch returns what the run does. It reports the new records that its visits hand on. -/
theorem runBatch_traced {owned : Bool} {pool : Except Failure Pool} {batch : List (Option Record)} {r : Router σ}
    {s t closed : σ} {vs : List Visit} {y : Router σ × σ} (hpool : ∃ p, pool = .ok p)
    (h : Went f owned batch (r, s) vs y closed t)
    (hreceive : ∀ r location, (f.receive r location).Fails Failure.IsPlatform) :
    ∃ r' calls, (runBatch f.traced owned pool batch).exec (r.traced, s, []) =
        (.ok (vs.map Visit.invocation), r', t, calls) ∧ r'.counts = y.1.counts ∧
      Effect.received calls = (recordsFor (vs.flatMap Visit.transfers) .success).map (·, f.transitUri) := by
  obtain ⟨calls, calls', hwent, hreceived⟩ := h.traced hreceive
  exact ⟨_, calls', runBatch_eq_ok_iff.mpr ⟨hpool, vs, _, _, hwent, rfl, rfl⟩, rfl, hreceived⟩

theorem fails_receive (r : Runner) (record : Record) (location : String) :
    (r.receive record location).Fails Failure.IsPlatform := by
  unfold receive
  split
  · exact .lift _
  · exact .bind .get fun h => .zoom (.zoom (Provenance.fails_report _ _ _ _))

theorem OpenedRun.fails_receive {job : JobConfig} {x y : Runner × Home} {o : Opened} (h : OpenedRun job x o y)
    (record : Record) (location : String) : (o.fetcher.receive record location).Fails Failure.IsPlatform := by
  rw [h.fetcher]
  exact x.1.fails_receive record location

end Runner

end DocFetch
