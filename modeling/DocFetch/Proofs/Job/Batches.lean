import DocFetch.Proofs.Job.Visits

/-! # Batches in any order

Where the store always gives the same answers and every report succeeds, what an invocation settles depends on its
record alone, but for the uuid drawn for a new record. A batch can then go in any order, and it settles the same.
-/

namespace DocFetch

/-! ## Without drawn uuids -/

/-- A record of a channel without the uuid that a run may have drawn for it. -/
def Channel.undrawn (ch : Channel) (r : Record) : Record := if ch = .success then { r with uuid := "" } else r

def Transfer.undrawn (t : Transfer) : Transfer := ⟨t.channel, t.channel.undrawn t.record⟩

def Visit.undrawn (v : Visit) : Visit := { v with transfers := v.transfers.map Transfer.undrawn }

/-- An event without the uuid of its record. -/
def EventRow.undrawn (row : EventRow) : EventRow := { row with uuid := "" }

theorem recordsFor_undrawn (transfers : List Transfer) (ch : Channel) :
    recordsFor (transfers.map Transfer.undrawn) ch = (recordsFor transfers ch).map ch.undrawn := by
  induction transfers with
  | nil => rfl
  | cons t rest ih =>
    rw [List.map_cons, Routed.recordsFor_cons, Routed.recordsFor_cons t, List.map_append, ih]
    congr 1
    by_cases h : t.channel = ch
    · subst h
      simp [recordsFor, Transfer.undrawn]
    · simp [recordsFor, Transfer.undrawn, h]

/-- Visits that are the same but for drawn uuids, in any order, send the same to each channel. -/
theorem perm_recordsFor {vs vs' : List Visit} (h : (vs.map Visit.undrawn).Perm (vs'.map Visit.undrawn))
    (ch : Channel) :
    ((recordsFor (vs.flatMap Visit.transfers) ch).map ch.undrawn).Perm
      ((recordsFor (vs'.flatMap Visit.transfers) ch).map ch.undrawn) := by
  have hflat (vs : List Visit) :
      (vs.map Visit.undrawn).flatMap Visit.transfers = (vs.flatMap Visit.transfers).map Transfer.undrawn := by
    rw [List.flatMap_map, List.map_flatMap]
    rfl
  have hperm := h.flatMap_right Visit.transfers
  rw [hflat, hflat] at hperm
  rw [← recordsFor_undrawn, ← recordsFor_undrawn]
  exact (hperm.filter _).map _

theorem perm_undrawn {vs vs' : List Visit} (h : (vs.map fun v => (.ok v.undrawn : Except Failure Visit)).Perm
    (vs'.map fun v => .ok v.undrawn)) : (vs.map Visit.undrawn).Perm (vs'.map Visit.undrawn) := by
  have hvalues (vs : List Visit) :
      (vs.map fun v => (.ok v.undrawn : Except Failure Visit)).filterMap Except.toOption = vs.map Visit.undrawn := by
    rw [List.filterMap_map]
    exact congrFun List.filterMap_eq_map vs
  have hperm := h.filterMap Except.toOption
  rwa [hvalues, hvalues] at hperm

/-! ## Exporters throughout a batch -/

/-- Exporters that keep what they hold wherever a fetcher leads, and always take the same channels. -/
structure Router.Receivers {σ : Type} (exporters : List (Channel × Exporter σ)) (holds : Routed → σ → Prop)
    (accepts : Channel → Prop) (I : σ → Prop) (R : σ → σ → Prop) : Prop where
  keeps : Router.Keeps exporters holds
  takes : Router.Takes exporters holds accepts
  stable : ∀ {l s t}, holds l s → R s t → holds l t
  within : ∀ {l s}, holds l s → I s

namespace Fetcher

variable {σ : Type} {f : Fetcher σ} {record : Option Record} {s t : σ} {v : Visit} {uuid : String}
  {answers : String → Except Failure (Document ByteArray)}

theorem undrawn_transfersFor (f : Fetcher σ) (record : Option Record) (id uuid : String) (result : FetchResult) :
    (f.transfersFor record id uuid result).map Transfer.undrawn = f.transfersFor record id "" result := by
  cases result <;> cases record <;> rfl

theorem undrawn_completed (f : Fetcher σ) (record : Option Record) (id uuid : String) (result : FetchResult) :
    (Visit.completed record id result (f.transfersFor record id uuid result)).undrawn =
      .completed record id result (f.transfersFor record id "" result) :=
  congrArg (Visit.completed record id result) (f.undrawn_transfersFor record id uuid result)

theorem visit_undrawn (h : f.visit answers uuid record = .ok v) : f.visit answers "" record = .ok v.undrawn := by
  cases hid : resolveDocumentId f.config f.resolver record with
  | error e =>
    rw [visit_of_fault hid] at h ⊢
    obtain ⟨he, rfl⟩ := faulted_eq_ok h
    exact if_pos he
  | ok id =>
    cases hresult : FetchResult.ofRead (answers id) with
    | error e =>
      rw [visit_of_failure hid hresult] at h ⊢
      obtain ⟨he, rfl⟩ := faulted_eq_ok h
      exact if_pos he
    | ok result =>
      rw [visit_of_result hid hresult] at h ⊢
      cases h
      rw [undrawn_completed]

theorem Settles.undrawn (h : f.Settles (fun id answer => answer = answers id) v) :
    f.visit answers "" v.record = .ok v.undrawn := by
  obtain ⟨answer, uuid, hgives, hvisit⟩ := h
  rw [visit_congr hgives] at hvisit
  exact visit_undrawn hvisit

/-! ## One invocation -/

/-- A fetcher whose store gives the same answers and whose reports succeed in the states of `I`, which is where its
calls lead. -/
structure Dependable (f : Fetcher σ) (answers : String → Except Failure (Document ByteArray)) (I : σ → Prop)
    (R : σ → σ → Prop) : Prop where
  read : ∀ id {s}, I s → ∃ t, (f.read id).exec s = (answers id, t) ∧ R s t
  draw : ∀ {s}, I s → R s (f.draw.run s).2
  receive : ∀ r {s}, I s → ∃ t, (f.receive r f.transitUri).exec s = (.ok (), t) ∧ R s t
  log : ∀ {e s}, I s → R s ((f.log e).run s).2
  keeps : ∀ {s t}, I s → R s t → I t

namespace Dependable

variable {I : σ → Prop} {R : σ → σ → Prop} [IsTrans σ R]

theorem conclude (h : f.Dependable answers I R) (hs : I s) (record : Option Record) (id : String)
    (result : FetchResult) :
    ∃ t, (f.conclude record id result).exec s =
      (.ok (f.transfersFor record id (f.draw.run s).1 result), t) ∧ R s t := by
  cases result with
  | found content cas expiry =>
    have hdraw := h.draw hs
    obtain ⟨t, hreceive, hR⟩ := h.receive
      (successRecord f.config (f.draw.run s).1 id content cas expiry) (h.keeps hs hdraw)
    refine ⟨t, ?_, IsTrans.trans _ _ _ hdraw hR⟩
    rw [exec_conclude_found f record id content cas expiry s rfl, hreceive]
    rfl
  | notFound e => exact ⟨_, exec_conclude_notFound f record id e s, h.log hs⟩
  | storeError e => exact ⟨_, exec_conclude_storeError f record id e s, h.log hs⟩

theorem exec_attend (h : f.Dependable answers I R) (hs : I s) (hv : f.visit answers "" record = .ok v) :
    ∃ v' t, (f.attend record).exec s = (.ok v', t) ∧ v'.undrawn = v := by
  obtain ⟨v', t, hattended, hundrawn⟩ : ∃ v' t, f.Attended record s v' t ∧ v'.undrawn = v := by
    cases hid : resolveDocumentId f.config f.resolver record with
    | error e =>
      rw [visit_of_fault hid] at hv
      obtain ⟨he, rfl⟩ := faulted_eq_ok hv
      exact ⟨_, _, .faulted hid he, rfl⟩
    | ok id =>
      obtain ⟨t, hread, hR⟩ := h.read id hs
      cases hresult : FetchResult.ofRead (answers id) with
      | error e =>
        rw [visit_of_failure hid hresult] at hv
        obtain ⟨he, rfl⟩ := faulted_eq_ok hv
        exact ⟨_, _, .failed hid hread hresult he, rfl⟩
      | ok result =>
        rw [visit_of_result hid hresult] at hv
        cases hv
        obtain ⟨u, hconclude, -⟩ := h.conclude (h.keeps hs hR) record id result
        exact ⟨_, _, .concluded hid hread hresult hconclude, undrawn_completed _ _ _ _ _⟩
  exact ⟨v', t, attend_eq_ok_iff.mpr hattended, hundrawn⟩

theorem attended (h : f.Dependable answers I R) (hs : I s) (hv : f.Attended record s v t) :
    f.visit answers "" record = .ok v.undrawn ∧ R s t := by
  cases hv with
  | faulted hid he => exact ⟨(visit_of_fault hid).trans (if_pos he), h.log hs⟩
  | failed hid hread hresult he =>
    obtain ⟨u, hu, hR⟩ := h.read _ hs
    cases hu.symm.trans hread
    exact ⟨(visit_of_failure hid hresult).trans (if_pos he), IsTrans.trans _ _ _ hR (h.log (h.keeps hs hR))⟩
  | concluded hid hread hresult hconclude =>
    obtain ⟨u, hu, hR⟩ := h.read _ hs
    cases hu.symm.trans hread
    obtain ⟨w, hw, hR'⟩ := h.conclude (h.keeps hs hR) record _ _
    cases hw.symm.trans hconclude
    exact ⟨visit_undrawn (visit_of_result hid hresult), IsTrans.trans _ _ _ hR hR'⟩
  | unconcluded hid hread hresult hconclude he =>
    obtain ⟨u, hu, hR⟩ := h.read _ hs
    cases hu.symm.trans hread
    obtain ⟨w, hw, -⟩ := h.conclude (h.keeps hs hR) record _ _
    cases hw.symm.trans hconclude

/-! ## Batches -/

variable {holds : Routed → σ → Prop} {accepts : Channel → Prop} {batch batch' : List (Option Record)}
  {x y : Router σ × σ} {vs : List Visit} {l : Routed}

theorem upholds {exporters : List (Channel × Exporter σ)} (h : f.Dependable answers I R)
    (hexporters : Router.Receivers exporters holds accepts I R) :
    f.Upholds (fun id answer => answer = answers id) fun _ => holds where
  read hl hread := by
    obtain ⟨t, ht, hR⟩ := h.read _ (hexporters.within hl)
    cases ht.symm.trans hread
    exact ⟨rfl, hexporters.stable hl hR⟩
  concluded hl hconclude := by
    obtain ⟨t, ht, hR⟩ := h.conclude (hexporters.within hl) _ _ _
    cases ht.symm.trans hconclude
    exact hexporters.stable hl hR
  unconcluded hl hconclude _ := by
    obtain ⟨t, ht, -⟩ := h.conclude (hexporters.within hl) _ _ _
    cases ht.symm.trans hconclude
  aborted _ _ hl := hexporters.stable hl (h.log (hexporters.within hl))

theorem goes (h : f.Dependable answers I R) (hexporters : Router.Receivers x.1.exporters holds accepts I R)
    (hgoes : f.Goes batch x vs y) (hl : holds l x.2) :
    batch.map (f.visit answers "") = vs.map (fun v => .ok v.undrawn) ∧
      ∀ v ∈ vs, ∀ t ∈ v.transfers, accepts t.channel := by
  induction hgoes generalizing l with
  | nil => exact ⟨rfl, fun _ hv => absurd hv List.not_mem_nil⟩
  | cons hattend hroute hrest ih =>
    obtain ⟨hvisit, hR⟩ := h.attended (hexporters.within hl) (attend_eq_ok_iff.mp hattend)
    have hattended := hexporters.stable hl hR
    have haccepts := (Router.route_returns_iff hexporters.keeps hexporters.takes hattended).mp ⟨_, hroute⟩
    obtain ⟨hrouter, hholds⟩ := Router.route_eq_ok hexporters.keeps hattended hroute
    rw [hrouter] at ih
    obtain ⟨hvisits, hall⟩ := ih hexporters hholds
    exact ⟨by rw [List.map_cons, List.map_cons, hvisit, hvisits], List.forall_mem_cons.mpr ⟨haccepts, hall⟩⟩

theorem exists_goes (h : f.Dependable answers I R) (hexporters : Router.Receivers x.1.exporters holds accepts I R)
    (hl : holds l x.2)
    (hbatch : ∀ record ∈ batch, ∃ v, f.visit answers "" record = .ok v ∧ ∀ t ∈ v.transfers, accepts t.channel) :
    ∃ vs y, f.Goes batch x vs y := by
  induction batch generalizing x l with
  | nil => exact ⟨[], x, .nil⟩
  | cons record rest ih =>
    obtain ⟨r, s⟩ := x
    obtain ⟨⟨v, hv, haccepts⟩, hrest⟩ := List.forall_mem_cons.mp hbatch
    obtain ⟨v', t, hattend, rfl⟩ := h.exec_attend (hexporters.within hl) hv
    obtain ⟨-, hR⟩ := h.attended (hexporters.within hl) (attend_eq_ok_iff.mp hattend)
    have hattended := hexporters.stable hl hR
    have htaken : ∀ t ∈ v'.transfers, accepts t.channel := by
      intro t ht
      exact haccepts t.undrawn (List.mem_map_of_mem ht)
    obtain ⟨⟨r', u⟩, hroute⟩ := (Router.route_returns_iff hexporters.keeps hexporters.takes hattended).mpr htaken
    obtain ⟨rfl, hholds⟩ := Router.route_eq_ok hexporters.keeps hattended hroute
    -- The rest starts where the exporters hold the transfers of this visit too.
    obtain ⟨vs, y, hgoes⟩ := ih (x := (r.counted v'.transfers, u)) hexporters hholds hrest
    exact ⟨v' :: vs, y, .cons hattend hroute hgoes⟩

/-- A batch that returned also returns in any other order, and settles the same but for drawn uuids. -/
theorem goes_perm (h : f.Dependable answers I R) (hexporters : Router.Receivers x.1.exporters holds accepts I R)
    (hgoes : f.Goes batch x vs y) (hperm : batch.Perm batch') (hl : holds l x.2) :
    ∃ vs' y', f.Goes batch' x vs' y' ∧ (vs.map Visit.undrawn).Perm (vs'.map Visit.undrawn) := by
  obtain ⟨hvisits, haccepts⟩ := h.goes hexporters hgoes hl
  have hbatch : ∀ record ∈ batch', ∃ v, f.visit answers "" record = .ok v ∧
      ∀ t ∈ v.transfers, accepts t.channel := by
    intro record hrecord
    have hmem : f.visit answers "" record ∈ vs.map fun v => .ok v.undrawn :=
      hvisits ▸ List.mem_map_of_mem (hperm.mem_iff.mpr hrecord)
    obtain ⟨v, hv, hok⟩ := List.mem_map.mp hmem
    refine ⟨v.undrawn, hok.symm, fun t ht => ?_⟩
    obtain ⟨t', ht', rfl⟩ := List.mem_map.mp ht
    exact haccepts v hv t' ht'
  obtain ⟨vs', y', hgoes'⟩ := h.exists_goes hexporters hl hbatch
  obtain ⟨hvisits', -⟩ := h.goes hexporters hgoes' hl
  -- Both lists of visits are what the records settle one by one, so that they are permuted alike.
  have hsettled := hperm.map (f.visit answers "")
  rw [hvisits, hvisits'] at hsettled
  exact ⟨vs', y', hgoes', perm_undrawn hsettled⟩

/-- What is settled in whatever order is what a batch settles in order, but for drawn uuids. -/
theorem perm_undrawn (h : f.Dependable answers I R) (hexporters : Router.Receivers x.1.exporters holds accepts I R)
    (hvisits : ∀ v ∈ vs, f.Settles (fun id answer => answer = answers id) v)
    (hperm : (vs.map Visit.record).Perm batch) {vs' : List Visit} (hgoes : f.Goes batch x vs' y) (hl : holds l x.2) :
    (vs.map Visit.undrawn).Perm (vs'.map Visit.undrawn) := by
  have hsettled := hperm.map (f.visit answers "")
  rw [(h.goes hexporters hgoes hl).1, List.map_map] at hsettled
  have hvalues : vs.map (f.visit answers "" ∘ Visit.record) = vs.map fun v => .ok v.undrawn :=
    List.map_congr_left fun v hv => (hvisits v hv).undrawn
  rw [hvalues] at hsettled
  exact DocFetch.perm_undrawn hsettled

end Dependable

end Fetcher

end DocFetch
