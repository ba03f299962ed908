import DocFetch.Proofs.Job.Tracing
import DocFetch.Proofs.Record.Reading
import Mathlib.Data.List.Forall2
import Mathlib.Data.List.Nodup

/-! # Reports

For every document that it finds, an invocation draws a uuid, reports the new record and hands it on. The events of
a run therefore tell of the records in its channel of new records, one each and in the same order, and their uuids
come from different draws.
-/

namespace DocFetch

/-! ## Events as they are read back -/

/-- An event that tells that a record was received from a place. It has the attributes of the record, in any
order. -/
structure Event.Receives (e : Event) (location : String) (record : Record) : Prop where
  kind : e.kind = "RECEIVE"
  uuid : e.uuid = record.uuid
  location : e.location = location
  attributes : ∃ a : Attributes, a.Perm record.attributes ∧ e.attributes = Record.attributesValue a

theorem Provenance.receives_row {record : Record} (h : (record.attributes.map Prod.fst).Nodup)
    (timestamp location : String) :
    (EventTable.toEvent (row timestamp location record)).Receives location record where
  kind := rfl
  uuid := rfl
  location := rfl
  attributes := by
    obtain ⟨sorted, hperm, hread⟩ := Record.read?_attributesJson h
    refine ⟨sorted, hperm, ?_⟩
    change (Json.read? (Record.attributesJson record.attributes)).getD .null = _
    rw [hread, Option.getD_some]

/-! ## New records -/

/-- The new records that visits handed on. -/
def newRecords (vs : List Visit) : List Record := recordsFor (vs.flatMap Visit.transfers) .success

theorem newRecords_concat (vs : List Visit) (v : Visit) :
    newRecords (vs ++ [v]) = newRecords vs ++ recordsFor v.transfers .success := by
  simp [newRecords, Routed.recordsFor_append]

namespace Fetcher

variable {σ : Type} {f : Fetcher σ} {record : Option Record} {s t : σ} {v : Visit}

/-- What was read leads to a line of a log, or to a new record with a new uuid that is reported. -/
theorem conclude_new {id : String} {result : FetchResult} {transfers : List Transfer}
    (h : (f.conclude record id result).exec s = (.ok transfers, t)) :
    (recordsFor transfers .success = [] ∧ ∃ entry, t = ((f.log entry).run s).2) ∨
    ∃ out, recordsFor transfers .success = [out] ∧ out.uuid = (f.draw.run s).1 ∧
      (f.receive out f.transitUri).exec (f.draw.run s).2 = (.ok (), t) := by
  cases result with
  | found content cas expiry =>
    rw [exec_conclude_found f record id content cas expiry s rfl] at h
    rcases hreceive : (f.receive _ f.transitUri).exec (f.draw.run s).2 with ⟨ended, u⟩
    rw [hreceive] at h
    cases ended with
    | ok _ =>
      cases h
      refine .inr ⟨_, ?_, rfl, hreceive⟩
      cases record <;> rfl
    | error e => cases h
  | notFound e =>
    cases h
    exact .inl ⟨by cases record <;> rfl, _, rfl⟩
  | storeError e =>
    cases h
    exact .inl ⟨by cases record <;> rfl, _, rfl⟩

theorem recordsFor_transfersFor_success (f : Fetcher σ) (record : Option Record) (id uuid : String)
    (result : FetchResult) :
    recordsFor (f.transfersFor record id uuid result) .success =
      match result with
      | .found content cas expiry => [successRecord f.config uuid id content cas expiry]
      | _ => [] := by
  cases result <;> cases record <;> rfl

theorem nodup_successRecord (config : FetchConfig) (uuid id : String) (content : ByteArray) (cas expiry : Number) :
    ((successRecord config uuid id content cas expiry).attributes.map Prod.fst).Nodup :=
  (by decide : [FetchAttribute.cluster.name, FetchAttribute.bucket.name, FetchAttribute.documentId.name,
    FetchAttribute.cas.name, FetchAttribute.expiry.name].Nodup)

theorem Goes.nodup_attributes {batch : List (Option Record)} {x y : Router σ × σ} {vs : List Visit}
    (h : f.Goes batch x vs y) : ∀ out ∈ newRecords vs, (out.attributes.map Prod.fst).Nodup := by
  intro out hout
  obtain ⟨v, hv, ht⟩ := List.mem_flatMap.mp (Routed.mem_recordsFor.mp hout)
  have hmem := Routed.mem_recordsFor.mpr ht
  obtain ⟨answer, uuid, -, hvisit⟩ := h.settles v hv
  rcases visit_eq_ok hvisit with ⟨e, -, hv⟩ | ⟨id, result, -, -, hv⟩
  · rw [hv] at ht
    exact absurd ht List.not_mem_nil
  · rw [hv, Visit.completed, recordsFor_transfersFor_success] at hmem
    split at hmem
    · rw [List.mem_singleton.mp hmem]
      exact nodup_successRecord _ _ _ _ _ _
    · exact absurd hmem List.not_mem_nil

end Fetcher

theorem DocumentStore.Reads.outputs {store : DocumentStore Home}
    (h : store.Reads (Home.Changes (Resource.outputs ∪ Resource.provenance)ᶜ)) :
    store.Reads (Home.Changes Resource.outputsᶜ) :=
  h.mono fun _ _ hc => hc.mono fun _ hr hmem => hr (.inl hmem)

namespace Runner

variable {name : String} {records : Option (List Record)} {job : JobConfig} {x y : Runner × Home}
  {summary : Summary}

/-! ## What a run has told -/

/-- What a run has told since `start` of the records of its visits: their uuids come from draws one after the other,
and a database has an event for each. -/
structure Told (r : Runner) (location : String) (start : Home) (vs : List Visit) (h : Home) : Prop where
  changes : start.Changes Set.univ h
  draws : ∃ ns : List Nat, (newRecords vs).map Record.uuid = ns.map start.uuid ∧ ns.Pairwise (· < ·) ∧
    ∀ n ∈ ns, start.world.drawn < n ∧ n ≤ h.world.drawn
  events : ∀ path, r.provenance = .database path → h.files.eventsAt path.resolve =
    start.files.eventsAt path.resolve ++ (newRecords vs).map (Provenance.row (start.now.textWith "T") location)

theorem eventsAt_receive {r : Runner} {out : Record} {location : String} {h h' : Home} {path : Path}
    (hpath : r.provenance = .database path) (hreceive : (r.receive out location).exec h = (.ok (), h')) :
    h'.files.eventsAt path.resolve =
      h.files.eventsAt path.resolve ++ [Provenance.row (h.now.textWith "T") location out] := by
  unfold receive at hreceive
  rw [hpath] at hreceive
  obtain ⟨_, _, hget, hreport⟩ := Action.exec_bind_eq_ok hreceive
  cases hget
  obtain ⟨world, hworld, rfl⟩ := Action.exec_zoom_eq_ok hreport
  obtain ⟨storage, hstorage, rfl⟩ := Action.exec_zoom_eq_ok hworld
  exact Provenance.report_eq_ok hstorage

namespace Told

variable {r : Runner} {location : String} {start h h' : Home} {vs : List Visit} {v : Visit} {scope : Set Resource}

theorem nothing (r : Runner) (location : String) (h : Home) : Told r location h [] h where
  changes := .refl _ h
  draws := ⟨[], rfl, .nil, fun _ hn => absurd hn List.not_mem_nil⟩
  events _ _ := (List.append_nil _).symm

theorem along (ht : Told r location start vs h) (hc : h.Changes scope h')
    (hscope : Disjoint scope Resource.provenance) : Told r location start vs h' where
  changes := ht.changes.trans (hc.mono (Set.subset_univ scope))
  draws := by
    obtain ⟨ns, huuids, hincreasing, hbounds⟩ := ht.draws
    exact ⟨ns, huuids, hincreasing, fun n hn => ⟨(hbounds n hn).1, (hbounds n hn).2.trans hc.world.drawn_le⟩⟩
  events path hpath := by
    have hkept : Resource.events path.resolve ∉ scope := fun hmem => Set.disjoint_left.mp hscope hmem ⟨_, rfl⟩
    rw [← ht.events path hpath]
    exact hc.world.eventsAt hkept

theorem pass (ht : Told r location start vs h) (hnone : recordsFor v.transfers .success = []) :
    Told r location start (vs ++ [v]) h := by
  have hsame : newRecords (vs ++ [v]) = newRecords vs := by rw [newRecords_concat, hnone, List.append_nil]
  exact ⟨ht.changes, hsame ▸ ht.draws, hsame ▸ ht.events⟩

theorem receive {out : Record} (ht : Told r location start vs h) (hout : recordsFor v.transfers .success = [out])
    (huuid : out.uuid = (Home.draw.run h).1)
    (hreceive : (r.receive out location).exec (Home.draw.run h).2 = (.ok (), h')) :
    Told r location start (vs ++ [v]) h' := by
  have hc := (r.moves_receive out location).of_exec hreceive
  have hdrawn : h.world.drawn + 1 ≤ h'.world.drawn := hc.world.drawn_le
  have hdrawing := (Home.changes_draw h).mono (Set.subset_univ {Resource.drawn})
  refine ⟨(ht.changes.trans hdrawing).trans (hc.mono (Set.subset_univ _)), ?_, ?_⟩
  · obtain ⟨ns, huuids, hincreasing, hbounds⟩ := ht.draws
    refine ⟨ns ++ [h.world.drawn + 1], ?_, ?_, ?_⟩
    · rw [newRecords_concat, hout, List.map_append, List.map_append, huuids, List.map_singleton, List.map_singleton,
        huuid, ← ht.changes.uuid]
      rfl
    · refine List.pairwise_append.mpr ⟨hincreasing, List.pairwise_singleton _ _, fun m hm n hn => ?_⟩
      rw [List.mem_singleton.mp hn]
      exact Nat.lt_succ_of_le (hbounds m hm).2
    · refine List.forall_mem_append.mpr ⟨fun n hn => ⟨(hbounds n hn).1, ?_⟩, fun n hn => ?_⟩
      · exact (hbounds n hn).2.trans (Nat.le_of_succ_le hdrawn)
      · rw [List.mem_singleton.mp hn]
        exact ⟨Nat.lt_succ_of_le ht.changes.world.drawn_le, hdrawn⟩
  · intro path hpath
    rw [newRecords_concat, hout, List.map_append, ← List.append_assoc, ← ht.events path hpath, ← ht.changes.now]
    have hevents := eventsAt_receive hpath hreceive
    exact hevents

end Told

theorem disjoint_provenance : Disjoint (Resource.outputs ∪ Resource.provenance)ᶜ Resource.provenance :=
  Set.disjoint_left.mpr fun _ hr hmem => hr (.inr hmem)

theorem logs_subset : Resource.logs ∪ {.directories} ⊆ (Resource.outputs ∪ Resource.provenance)ᶜ := by
  rintro r (⟨p, hp, rfl⟩ | rfl) (hr | ⟨q, hq⟩)
  · exact absurd (hp.symm.trans hr) (by decide)
  · cases hq
  · exact hr
  · cases hq

/-- The fetcher of a run tells of the records that it makes, where a shared store leaves events alone. -/
theorem OpenedRun.told_upholds {o : Opened} (h : OpenedRun job x o y)
    (hshared : ∀ s, Assoc.get? job.jobName x.1.stores = some s →
      s.Reads (Home.Changes (Resource.outputs ∪ Resource.provenance)ᶜ)) (start : Home) :
    o.fetcher.Upholds (fun _ _ => True) fun vs _ s => Told x.1 o.fetcher.transitUri start vs s := by
  have hreads := h.source.reads hshared (Set.subset_union_right.trans logs_subset)
  have hlog (e : Log.Entry) (s : Home) : s.Changes (Resource.outputs ∪ Resource.provenance)ᶜ
      ((Home.log o.logger e).run s).2 :=
    (Home.changes_log _ e s).mono (Set.subset_union_left.trans logs_subset)
  rw [h.fetcher]
  refine ⟨fun ht hread => ⟨trivial, ?_⟩, fun ht hconclude => ?_, fun _ hconclude he => ?_, fun _ _ ht => ?_⟩
  · exact ht.along ((Fetcher.moves_read hreads _).of_exec hread) disjoint_provenance
  · rcases Fetcher.conclude_new hconclude with ⟨hnone, entry, rfl⟩ | ⟨out, hout, huuid, hreceive⟩
    · exact (ht.along (hlog entry _) disjoint_provenance).pass hnone
    · exact ht.receive hout huuid hreceive
  · have hplatform := Fetcher.fails_conclude x.1.fails_receive _ _ _ _ _ _ hconclude
    exact absurd (he.symm.trans (hplatform.isKindOf .configuration)) (by decide)
  · exact (ht.along (hlog _ _) disjoint_provenance).pass rfl

theorem disjoint_outputs_provenance : Disjoint (Resource.outputs ∪ {.directories}) Resource.provenance := by
  rw [Set.disjoint_left]
  rintro r (hr | rfl) ⟨q, hq⟩
  · subst hq
    exact hr
  · cases hq

theorem OpenedRun.told {o : Opened} (h : OpenedRun job x o y) : Told x.1 o.fetcher.transitUri x.2 [] y.2 := by
  have hlogs : Disjoint (Resource.logs ∪ {.directories}) Resource.provenance :=
    disjoint_provenance.mono_left logs_subset
  have hbefore := (Told.nothing x.1 o.fetcher.transitUri x.2).along h.changes_beforeRouter hlogs
  have hrouter := hbefore.along (.of_world (OutputConfig.changes_openRouter h.opened)) disjoint_outputs_provenance
  exact hrouter.along h.started (hlogs.mono_left Set.subset_union_left)

theorem OpenedRun.told_keeps {o : Opened} {holds : Routed → World → Prop} (h : OpenedRun job x o y)
    (hledger : Ledger job.output job.jobName x.1.outputs x.2.now.tag h.beforeRouter.world Resource.outputs h.router
      holds) (start : Home) (vs : List Visit) :
    Router.Keeps o.router.exporters fun l s => holds l s.world ∧ Told x.1 o.fetcher.transitUri start vs s :=
  h.keeps_and hledger fun _ _ ht hc => ht.along hc (disjoint_outputs_provenance.mono_left Set.subset_union_left)

/-- What a run told when it returned, where a shared store leaves outputs and events alone. -/
theorem RunParts.told (p : RunParts name records x summary y)
    (hshared : ∀ s, Assoc.get? p.job.jobName x.1.stores = some s →
      s.Reads (Home.Changes (Resource.outputs ∪ Resource.provenance)ᶜ)) :
    Told x.1 p.opened.fetcher.transitUri x.2 p.visits y.2 := by
  obtain ⟨h, holds, hledger, hstart⟩ := p.exists_ledger
  have hupholds := (h.upholds hledger fun s hs => (hshared s hs).outputs).and (h.told_upholds hshared x.2)
  obtain ⟨-, hheld, htold⟩ := p.went.goes.holds (d := []) (l := .nothing) (h.told_keeps hledger x.2) hupholds
    ⟨hstart, h.told⟩
  obtain ⟨world, hworld, hclosed⟩ := p.exists_closing h
  have hclosing : p.after.2.Changes Resource.outputs p.closed := hclosed ▸ .of_world (hledger.closes hheld hworld)
  have hended := htold.along hclosing (disjoint_outputs_provenance.mono_left Set.subset_union_left)
  exact hended.along p.changes_closed
    (disjoint_provenance.mono_left (Set.subset_union_left.trans logs_subset))

/-- Where draws do not repeat a uuid nor give that of an incoming record, the new records have uuids of their
own. -/
theorem Told.uuids {r : Runner} {location : String} {start h : Home} {vs : List Visit}
    (ht : Told r location start vs h)
    (hinjective : ∀ m n, start.world.drawn < m → start.world.drawn < n → start.uuid m = start.uuid n → m = n)
    (incoming : List Record) (hnew : ∀ n, start.world.drawn < n → ∀ r ∈ incoming, start.uuid n ≠ r.uuid) :
    ((newRecords vs).map Record.uuid).Nodup ∧ ∀ out ∈ newRecords vs, ∀ r ∈ incoming, out.uuid ≠ r.uuid := by
  obtain ⟨ns, huuids, hincreasing, hbounds⟩ := ht.draws
  constructor
  · rw [huuids]
    refine List.Nodup.map_on (fun m hm n hn heq => ?_) (hincreasing.imp Nat.ne_of_lt)
    exact hinjective m n (hbounds m hm).1 (hbounds n hn).1 heq
  · intro out hout r hr
    have hmem : out.uuid ∈ ns.map start.uuid := huuids ▸ List.mem_map_of_mem hout
    obtain ⟨n, hn, hdrawn⟩ := List.mem_map.mp hmem
    rw [← hdrawn]
    exact hnew n (hbounds n hn).1 r hr

/-- The events that a run reports and the new records that it exports are the same ones, as many as documents were
found. Kept calls show the records as they are reported, with where they came from. Where a shared store leaves
outputs and events alone, the records are those added to the channel of new records, and a database of events has
gained one row for each. Both are read back as they were. Their uuids differ from one another and from those of
incoming records if the draws of uuids do. -/
theorem run_reports (h : (run name records).exec x = (.ok summary, y)) :
    ∃ job o start outs, x.1.layout.loadJob x.2.files name = .ok job ∧
      (openRun job records).exec x = (.ok o, start) ∧
      outs.length = summary.statuses .found ∧
      (∃ is r t calls,
        (runBatch o.fetcher.traced o.owned o.pool (batchOf records)).exec (o.router.traced, start.2, []) =
          (.ok is, r, t, calls) ∧ summary = .ofInvocations is r.counts ∧
        Effect.received calls = outs.map (·, o.fetcher.transitUri)) ∧
      (∀ out ∈ outs, Json.read? (Json.write out.toValue) = some out.toValue) ∧
      ((∀ s, Assoc.get? job.jobName x.1.stores = some s →
          s.Reads (Home.Changes (Resource.outputs ∪ Resource.provenance)ᶜ)) →
        job.output.Added job.jobName x.1.outputs x.2.now.tag x.2.world y.2.world .success outs ∧
        (∀ path, x.1.provenance = .database path → ∃ rows,
          y.2.files.eventsAt path.resolve = x.2.files.eventsAt path.resolve ++ rows ∧
          List.Forall₂ (fun row out => (EventTable.toEvent row).Receives o.fetcher.transitUri out) rows outs) ∧
        ((∀ m n, x.2.world.drawn < m → x.2.world.drawn < n → x.2.uuid m = x.2.uuid n → m = n) →
          (∀ n, x.2.world.drawn < n → ∀ r ∈ records.getD [], x.2.uuid n ≠ r.uuid) →
          (outs.map Record.uuid).Nodup ∧ ∀ out ∈ outs, ∀ r ∈ records.getD [], out.uuid ≠ r.uuid)) := by
  obtain ⟨p⟩ := run_eq_ok_iff.mp h
  obtain ⟨opened⟩ := openRun_eq_ok p.opening
  have hattributes := p.went.goes.nodup_attributes
  refine ⟨p.job, p.opened, p.start, newRecords p.visits, p.loaded, p.opening, ?_, ?_, ?_,
    fun hshared => ⟨?_, ?_, ?_⟩⟩
  · exact (p.channels_eq_length .success).symm.trans (p.channels_eq_statuses fun _ _ => .inr rfl)
  · obtain ⟨r, calls, hrun, hcounts, hreceived⟩ := runBatch_traced p.pool p.went opened.fails_receive
    exact ⟨_, r, _, calls, hrun, by rw [hcounts]; exact p.counted, hreceived⟩
  · exact fun out hout => Record.read?_toValue (hattributes out hout)
  · exact p.added (fun s hs => (hshared s hs).outputs) .success
  · intro path hpath
    refine ⟨_, (p.told hshared).events path hpath, ?_⟩
    rw [List.forall₂_map_left_iff, List.forall₂_same]
    exact fun out hout => Provenance.receives_row (hattributes out hout) _ _
  · exact fun hinjective hnew => (p.told hshared).uuids hinjective _ hnew

theorem sampleHome_uuid_injective {m n : Nat} (h : sampleHome.uuid m = sampleHome.uuid n) : m = n := by
  have hlists : List.replicate m 'u' = List.replicate n 'u' := String.ofList_injective h
  simpa using congrArg List.length hlists

theorem sampleHome_uuid_ne (n : Nat) : ∀ r ∈ sampleRecords, sampleHome.uuid n ≠ r.uuid := by
  have hletter {c : Char} (hc : c ≠ 'u') : sampleHome.uuid n ≠ String.ofList [c] := by
    intro h
    have hlists : List.replicate n 'u' = [c] := String.ofList_injective h
    exact hc (List.eq_of_mem_replicate (hlists ▸ List.mem_singleton_self c))
  simp only [sampleRecords, List.forall_mem_cons, List.not_mem_nil, false_implies, implies_true, and_true]
  exact ⟨hletter (by decide), hletter (by decide), hletter (by decide)⟩

/-- One record is found. Its event is the first in the database. -/
theorem run_reports_sample :
    ∃ summary y, (run "j" (some sampleRecords)).exec (sampleRunner, sampleHome) = (.ok summary, y) ∧
      ∃ job o start outs rows, sampleHome.layout.loadJob sampleHome.files "j" = .ok job ∧
        (openRun job (some sampleRecords)).exec (sampleRunner, sampleHome) = (.ok o, start) ∧ outs.length = 1 ∧
        job.output.Added job.jobName sampleRunner.outputs sampleHome.now.tag sampleHome.world y.2.world .success
          outs ∧
        y.2.files.eventsAt ⟨"/", ["h", "provenance.db"]⟩ = rows ∧
        List.Forall₂ (fun row out => (EventTable.toEvent row).Receives o.fetcher.transitUri out) rows outs ∧
        (outs.map Record.uuid).Nodup ∧ ∀ out ∈ outs, ∀ r ∈ sampleRecords, out.uuid ≠ r.uuid := by
  obtain ⟨summary, y, hrun, hstatuses, -⟩ := run_sample
  obtain ⟨job, o, start, outs, hjob, hopen, hlength, -, -, hrest⟩ := run_reports hrun
  obtain ⟨hadded, hevents, huuids⟩ := hrest fun s hs => by
    obtain ⟨m, rfl⟩ := sampleRunner_stores hs
    exact m.reads
  obtain ⟨rows, hrows, hreceives⟩ := hevents _ rfl
  have hbefore : sampleHome.files.eventsAt (Path.resolve ⟨"/", ["h", "provenance.db"]⟩) = [] := by decide +kernel
  obtain ⟨hnodup, hdifferent⟩ := huuids (fun _ _ _ _ => sampleHome_uuid_injective) fun n _ => sampleHome_uuid_ne n
  refine ⟨summary, y, hrun, job, o, start, outs, rows, hjob, hopen, ?_, hadded, ?_, hreceives, hnodup, hdifferent⟩
  · exact hlength.trans (List.cons.inj hstatuses).1
  · exact hrows.trans (by rw [hbefore, List.nil_append])

end Runner

end DocFetch
