import DocFetch.Proofs.Job.Batches
import DocFetch.Proofs.Job.Ready

/-! # Runs in any order

Workers may take the records of a batch in any order. As long as the documents stay, a run settles the same for
each of them, so that its summary, its output and its events are the same but for their order and for the uuids
that it draws.
-/

namespace DocFetch

/-- The tables of documents. -/
def Resource.documentTables : Set Resource := { x | ∃ p, x = .documents p }

/-- What invocations leave alone before they hand records on: outputs, directories and documents. -/
def Resource.footing : Set Resource := Resource.outputs ∪ {.directories} ∪ Resource.documentTables

namespace Resource

theorem outputs_subset_compl : outputs ∪ {.directories} ⊆ documentTablesᶜ := by
  rintro r (hr | rfl) ⟨p, hp⟩
  · subst hp
    exact hr
  · cases hp

theorem footing_compl_subset : footingᶜ ⊆ documentTablesᶜ := fun _ hr hmem => hr (.inr hmem)

theorem logs_subset_footing_compl : logs ⊆ footingᶜ := by
  rintro r ⟨p, hp, rfl⟩ ((hr | hr) | ⟨q, hq⟩)
  · exact absurd (hp.symm.trans hr) (by decide)
  · cases hr
  · cases hq

theorem logs_subset_documents : logs ∪ {.directories} ⊆ documentTablesᶜ :=
  Set.union_subset (logs_subset_footing_compl.trans footing_compl_subset)
    (Set.subset_union_right.trans outputs_subset_compl)

theorem events_mem_footing_compl (p : Path) : .events p ∈ footingᶜ := by
  rintro ((hr | hr) | ⟨q, hq⟩)
  · exact hr
  · cases hr
  · cases hq

theorem drawn_subset_footing_compl : {.drawn} ⊆ footingᶜ := by
  rintro r rfl ((hr | hr) | ⟨q, hq⟩)
  · exact hr
  · cases hr
  · cases hq

theorem disjoint_footing : Disjoint footingᶜ (outputs ∪ {.directories}) :=
  Set.disjoint_left.mpr fun _ hr hmem => hr (.inl hmem)

end Resource

/-! ## Stores whose documents stay -/

namespace DocumentStore

variable {σ : Type} {store : DocumentStore σ} {Q R : σ → σ → Prop} {s t : σ}

theorem Steady.of_leads [IsTrans σ Q] (h : store.Steady Q R s) (hst : Q s t) : store.Steady Q R t where
  json id u hu := (h.json id u (IsTrans.trans _ _ _ hst hu)).trans (h.json id t hst).symm
  binary id u hu := (h.binary id u (IsTrans.trans _ _ _ hst hu)).trans (h.binary id t hst).symm
  jsonMoves id u hu := h.jsonMoves id u (IsTrans.trans _ _ _ hst hu)
  binaryMoves id u hu := h.binaryMoves id u (IsTrans.trans _ _ _ hst hu)

/-- A shared store whose documents stay: it gives the same answers wherever no tables of documents change, and
reading it touches no events and nothing that a run stands on. -/
structure Still (store : DocumentStore Home) (h : Home) : Prop where
  steady : store.Steady (Home.Changes Resource.documentTablesᶜ) (Home.Changes Resource.footingᶜ) h
  reads : store.Reads (Home.Changes (Resource.outputs ∪ Resource.provenance)ᶜ)

end DocumentStore

theorem MemoryStore.still (m : MemoryStore) (h : Home) : (m.reader : DocumentStore Home).Still h :=
  ⟨m.steady h, m.reads⟩

theorem OpenStore.still (o : OpenStore) {h : Home} (hready : o.Ready h.world) :
    (o.reader.zoom Home.world fun h world => { h with world } : DocumentStore Home).Still h where
  steady := by
    have hscope (p : Path) : Resource.documents p ∉ Resource.documentTablesᶜ := fun hmem => hmem ⟨p, rfl⟩
    refine (o.steady hready hscope).zoom (fun _ ht => ht.world) fun _ _ hc => ?_
    exact .of_world (hc.mono (Set.empty_subset _))
  reads := by
    refine o.reads.zoom fun _ _ hc => .of_world (hc.mono ?_)
    exact Set.subset_union_right.trans Runner.logs_subset

theorem Fetcher.exec_read_steady {σ : Type} {f : Fetcher σ} {Q R : σ → σ → Prop} {s t : σ}
    (h : f.store.Steady Q R s) (ht : Q s t) (id : String) :
    ∃ u, (f.read id).exec t = (((f.read id).exec s).1, u) ∧ R t u := by
  cases htype : f.config.documentType with
  | json =>
    rw [exec_read_json htype, exec_read_json htype, h.json id t ht]
    exact ⟨_, rfl, h.jsonMoves id t ht⟩
  | binary =>
    rw [exec_read_binary htype, exec_read_binary htype, ← h.binary id t ht]
    exact ⟨_, rfl, h.binaryMoves id t ht⟩

namespace Runner

variable {name : String} {records records' : List Record} {job : JobConfig} {x y y' : Runner × Home} {o : Opened}
  {start : Runner × Home} {summary summary' : Summary}

/-! ## Runs that can be repeated -/

theorem Source.steady {r : Runner} {before after : Home} {store : DocumentStore Home} {owned : Bool}
    (h : Source r job before after store owned) (hsound : after.world.storage.Sound)
    (hshared : ∀ s, Assoc.get? job.jobName r.stores = some s →
      s.Steady (Home.Changes Resource.documentTablesᶜ) (Home.Changes Resource.footingᶜ) after) :
    store.Steady (Home.Changes Resource.documentTablesᶜ) (Home.Changes Resource.footingᶜ) after := by
  cases h with
  | shared hs _ => exact hshared _ hs
  | opened _ hopen heq =>
    subst heq
    exact (OpenStore.still _ (StoreConfig.openStore_ready hopen hsound)).steady

theorem Source.exists_closed {r : Runner} {before after : Home} {store : DocumentStore Home} {owned : Bool}
    (h : Source r job before after store owned) (s : Home) :
    ∃ t, if owned then store.close.exec s = (.ok (), t) else t = s := by
  cases h with
  | shared _ _ => exact ⟨s, rfl⟩
  | @opened o _ _ _ _ =>
    obtain ⟨world, hworld, -⟩ := o.exec_close s.world
    refine ⟨{ s with world }, ?_⟩
    change (o.reader.close.zoom Home.world fun h world => { h with world }).exec s = _
    rw [Action.exec_zoom, hworld]

theorem exec_receive (r : Runner) {h : Home}
    (hserves : ∀ path, r.provenance = .database path → h.world.storage.Serves path) (record : Record)
    (location : String) :
    ∃ h', (r.receive record location).exec h = (.ok (), h') ∧ h.Changes Resource.footingᶜ h' := by
  unfold receive
  split
  · exact ⟨_, rfl, (Home.changes_log _ _ h).mono Resource.logs_subset_footing_compl⟩
  · rename_i path hpath
    have hpath := hserves path hpath
    obtain ⟨storage, hreport⟩ := Provenance.report_of_serves hpath (h.now.textWith "T") location record
    have hchanges := Provenance.report_changes path (h.now.textWith "T") location record h.world.storage
    rw [hreport] at hchanges
    refine ⟨{ h with world := { h.world with storage } }, ?_, .of_world (.of_storage (hchanges.mono ?_))⟩
    · rw [Action.exec_bind_ok (Action.exec_get h), Home.onWorld, World.onStorage, Action.exec_zoom, Action.exec_zoom,
        hreport]
    · -- Directories are made only where the database is not connected.
      rintro x (rfl | ⟨-, hnot⟩)
      · exact Resource.events_mem_footing_compl _
      · exact absurd hpath.connected hnot

/-- The states that a run is in from the time that its store is open. -/
def Along (r : Runner) (opened s : Home) : Prop :=
  opened.Changes Resource.documentTablesᶜ s ∧
    ∀ path, r.provenance = .database path → s.world.storage.Serves path

theorem Along.changes {r : Runner} {opened s t : Home} {scope : Set Resource} (h : Along r opened s)
    (hc : s.Changes scope t) (hscope : scope ⊆ Resource.documentTablesᶜ) : Along r opened t :=
  ⟨h.1.trans (hc.mono hscope), fun path hpath => hc.world.storage.serves (h.2 path hpath)⟩

namespace OpenedRun

theorem dependable (h : OpenedRun job x o y) (hready : Ready x)
    (hshared : ∀ s, Assoc.get? job.jobName x.1.stores = some s → s.Still x.2) :
    o.fetcher.Dependable (fun id => ((o.fetcher.read id).exec h.beforeRouter).1) (Along x.1 h.beforeRouter)
      (Home.Changes Resource.footingᶜ) := by
  have hbefore : x.2.Changes Resource.documentTablesᶜ h.beforeRouter :=
    h.changes_beforeRouter.mono Resource.logs_subset_documents
  have hstore := h.source.steady (hbefore.world.storage.sound hready.sound)
    fun s hs => (hshared s hs).steady.of_leads hbefore
  rw [h.fetcher]
  refine ⟨fun id s hs => Fetcher.exec_read_steady hstore hs.1 id, fun {s} _ => ?_, fun r s hs => ?_,
    fun {e s} _ => ?_, fun hs hR => hs.changes hR Resource.footing_compl_subset⟩
  · exact (Home.changes_draw s).mono Resource.drawn_subset_footing_compl
  · exact x.1.exec_receive hs.2 r _
  · exact (Home.changes_log _ e s).mono Resource.logs_subset_footing_compl

theorem exists_receivers (h : OpenedRun job x o y) (hready : Ready x) :
    ∃ holds accepts, holds .nothing y.2 ∧
      Router.Receivers o.router.exporters holds accepts (Along x.1 h.beforeRouter)
        (Home.Changes Resource.footingᶜ) ∧
      ∀ {l s}, holds l s → ∀ transfers, ∃ t, (o.router.counted transfers).closing.exec s = (.ok (), t) := by
  obtain ⟨holds, hnothing, hledger⟩ := OutputConfig.exists_steadyLedger h.opened
  have hbefore : Along x.1 h.beforeRouter h.beforeRouter :=
    ⟨.refl _ _, fun path hpath => h.changes_beforeRouter.world.storage.serves (hready.serves path hpath)⟩
  have hrouter := hbefore.changes (.of_world (OutputConfig.changes_openRouter h.opened)) Resource.outputs_subset_compl
  have hstarted := hrouter.changes h.started (Set.subset_union_left.trans Resource.logs_subset_documents)
  have hheld := hledger.stable hnothing h.started.world
    (Resource.disjoint_footing.mono_left Resource.logs_subset_footing_compl)
  -- Writing changes outputs and attending changes the rest, so that each part is kept while the other one works.
  refine ⟨fun l s => holds l s.world ∧ Along x.1 h.beforeRouter s,
    job.output.Takes job.jobName x.1.outputs x.2.now.tag h.world, ⟨hheld, hstarted⟩, ?_, ?_⟩
  · refine ⟨h.keeps_and hledger.toLedger fun s t hs hc => ?_, ?_, ?_, And.right⟩
    · exact hs.changes hc (Set.subset_union_left.trans Resource.outputs_subset_compl)
    · intro c e l record s he hl
      exact h.takes hledger.takes (l := l) record he hl.1
    · intro l s t hl hR
      exact ⟨hledger.stable hl.1 hR.world Resource.disjoint_footing, hl.2.changes hR Resource.footing_compl_subset⟩
  · intro l s hl transfers
    obtain ⟨world, hworld⟩ := hledger.returns hl.1
    exact ⟨_, (h.closing_eq_ok_iff transfers).mpr ⟨world, hworld, rfl⟩⟩

theorem exists_closing (h : OpenedRun job x o y) (hready : Ready x)
    (hshared : ∀ s, Assoc.get? job.jobName x.1.stores = some s → s.Still x.2) {batch : List (Option Record)}
    {vs : List Visit} {z : Router Home × Home} (hgoes : o.fetcher.Goes batch (o.router, y.2) vs z) :
    ∃ closed, z.1.closing.exec z.2 = (.ok (), closed) := by
  have hdependable := h.dependable hready hshared
  obtain ⟨holds, accepts, hstart, hreceivers, hclosing⟩ := h.exists_receivers hready
  obtain ⟨hcounted, hheld⟩ := hgoes.holds (d := []) (fun _ => hreceivers.keeps) (hdependable.upholds hreceivers) hstart
  rw [hcounted]
  exact hclosing hheld _

end OpenedRun

/-- Opening a run looks at the number of its records only. -/
theorem openRun_congr (job : JobConfig) (h : records.length = records'.length) :
    openRun job (some records) = openRun job (some records') := by
  unfold openRun
  simp only [length_batchOf, Option.elim_some, Option.isNone_some, h]

/-- A run of a batch that goes through returns, where its router can be closed. -/
theorem exists_parts {records : Option (List Record)} {vs : List Visit} {z : Router Home × Home} {closed : Home}
    (hjob : x.1.layout.loadJob x.2.files name = .ok job) (hopen : (openRun job records).exec x = (.ok o, start))
    (hpool : ∃ p, o.pool = .ok p) (hgoes : o.fetcher.Goes (batchOf records) (o.router, start.2) vs z)
    (hclosing : z.1.closing.exec z.2 = (.ok (), closed)) :
    ∃ summary y, ∃ p : RunParts name records x summary y,
      p.job = job ∧ p.opened = o ∧ p.start = start ∧ p.visits = vs := by
  obtain ⟨h⟩ := openRun_eq_ok hopen
  obtain ⟨ended, hstore⟩ : ∃ ended,
      if o.owned then o.fetcher.store.close.exec closed = (.ok (), ended) else ended = closed := by
    rw [h.fetcher]
    exact h.source.exists_closed closed
  exact ⟨_, _, ⟨job, o, start, vs, z, closed, ended, hjob, hopen, hpool, ⟨hgoes, hclosing, hstore⟩, rfl, rfl⟩,
    rfl, rfl, rfl, rfl⟩

namespace RunParts

/-- A run that returned also returns with its records in another order. -/
theorem exists_perm (p : RunParts name (some records) x summary y) (hready : Ready x)
    (hshared : ∀ s, Assoc.get? p.job.jobName x.1.stores = some s → s.Still x.2) (hperm : records.Perm records') :
    ∃ summary' y', ∃ p' : RunParts name (some records') x summary' y',
      p'.job = p.job ∧ p'.opened = p.opened ∧ p'.start = p.start ∧
        (p.visits.map Visit.undrawn).Perm (p'.visits.map Visit.undrawn) := by
  obtain ⟨h⟩ := openRun_eq_ok p.opening
  obtain ⟨holds, accepts, hstart, hreceivers, -⟩ := h.exists_receivers hready
  obtain ⟨vs, z, hgoes, hvisits⟩ := (h.dependable hready hshared).goes_perm hreceivers p.went.goes
    (hperm.map some) hstart
  obtain ⟨closed, hclosing⟩ := h.exists_closing hready hshared hgoes
  have hopen := p.opening
  rw [openRun_congr p.job hperm.length_eq] at hopen
  obtain ⟨summary', y', p', hjob, hopened, hsame, rfl⟩ := exists_parts p.loaded hopen p.pool hgoes hclosing
  exact ⟨summary', y', p', hjob, hopened, hsame, hvisits⟩

theorem summary_congr {records : Option (List Record)} {records' : Option (List Record)}
    (p : RunParts name records x summary y) (p' : RunParts name records' x summary' y')
    (h : (p.visits.map Visit.undrawn).Perm (p'.visits.map Visit.undrawn)) : summary = summary' := by
  have hcount (q : Visit → Bool) (hq : ∀ v, q v.undrawn = q v) : p.visits.countP q = p'.visits.countP q := by
    have hperm := h.countP_eq q
    rw [List.countP_map, List.countP_map] at hperm
    simpa only [Function.comp_def, hq] using hperm
  have hstatuses : summary.statuses = summary'.statuses := by
    funext status
    rw [p.statuses_eq, p'.statuses_eq]
    exact hcount _ fun _ => rfl
  have hchannels : summary.channels = summary'.channels := by
    funext ch
    rw [p.channels_eq, p'.channels_eq]
    exact hcount _ fun _ => rfl
  cases summary
  cases summary'
  cases hstatuses
  cases hchannels
  rfl

end RunParts

/-! ## Runs that differ in order only -/

/-- Two homes after runs of a job that export the same and report the same, but for the order and for drawn
uuids. -/
structure Alike (job : JobConfig) (r : Runner) (before after after' : Home) : Prop where
  exports : ∀ ch, ∃ added added',
    job.output.Added job.jobName r.outputs before.now.tag before.world after.world ch added ∧
    job.output.Added job.jobName r.outputs before.now.tag before.world after'.world ch added' ∧
    (added.map ch.undrawn).Perm (added'.map ch.undrawn)
  events : ∀ path, r.provenance = .database path → ∃ rows rows',
    after.files.eventsAt path.resolve = before.files.eventsAt path.resolve ++ rows ∧
    after'.files.eventsAt path.resolve = before.files.eventsAt path.resolve ++ rows' ∧
    (rows.map EventRow.undrawn).Perm (rows'.map EventRow.undrawn)

theorem Alike.of_visits {r : Runner} {before after after' : Home} {location : String} {vs vs' ds ds' : List Visit}
    (h : (vs.map Visit.undrawn).Perm (vs'.map Visit.undrawn))
    (hadded : ∀ ch, job.output.Added job.jobName r.outputs before.now.tag before.world after.world ch
      (recordsFor (vs.flatMap Visit.transfers) ch))
    (hadded' : ∀ ch, job.output.Added job.jobName r.outputs before.now.tag before.world after'.world ch
      (recordsFor (vs'.flatMap Visit.transfers) ch))
    (hds : ds.Perm vs) (hds' : ds'.Perm vs') (htold : Told r location before ds after)
    (htold' : Told r location before ds' after') : Alike job r before after after' where
  exports ch := ⟨_, _, hadded ch, hadded' ch, perm_recordsFor h ch⟩
  events path hpath := by
    refine ⟨_, _, htold.events path hpath, htold'.events path hpath, ?_⟩
    have hundrawn (vs : List Visit) (timestamp : String) :
        ((newRecords vs).map (Provenance.row timestamp location)).map EventRow.undrawn =
          ((newRecords vs).map Channel.success.undrawn).map (Provenance.row timestamp location) := by
      rw [List.map_map, List.map_map]
      rfl
    have htelling := (hds.map Visit.undrawn).trans (h.trans (hds'.map Visit.undrawn).symm)
    rw [hundrawn, hundrawn]
    exact (perm_recordsFor htelling .success).map _

/-- Runs whose visits are the same but for their order and for drawn uuids. -/
theorem RunParts.alike (p : RunParts name (some records) x summary y) (p' : RunParts name (some records') x summary' y')
    (hjob : p'.job = p.job) (hopened : p'.opened = p.opened)
    (hshared : ∀ s, Assoc.get? p.job.jobName x.1.stores = some s →
      s.Reads (Home.Changes (Resource.outputs ∪ Resource.provenance)ᶜ))
    (h : (p.visits.map Visit.undrawn).Perm (p'.visits.map Visit.undrawn)) : Alike p.job x.1 x.2 y.2 y'.2 := by
  have hreads (s : DocumentStore Home) (hs : Assoc.get? p.job.jobName x.1.stores = some s) := (hshared s hs).outputs
  have hadded' := p'.added (hjob ▸ hreads)
  have htold' := p'.told (hjob ▸ hshared)
  rw [hjob] at hadded'
  rw [hopened] at htold'
  exact .of_visits h (p.added hreads) hadded' (.refl _) (.refl _) (p.told hshared) htold'

/-- The order of a batch does not matter as long as the documents stay. If all its invocations complete, or end in
faults of the configuration, then the run returns in any order of its records and with the same summary. It exports
the same records to each channel and reports the same, to a database of events and otherwise, but for the order and
for the uuids drawn for new records. -/
theorem run_perm {is : List Invocation} {z : Router Home × Home} (hready : Ready x)
    (hjob : x.1.layout.loadJob x.2.files name = .ok job)
    (hstill : ∀ s, Assoc.get? job.jobName x.1.stores = some s → s.Still x.2)
    (hopen : (openRun job (some records)).exec x = (.ok o, start)) (hpool : ∃ p, o.pool = .ok p)
    (hinvocations : (o.fetcher.invokeAll (records.map some)).exec (o.router, start.2) = (.ok is, z))
    (hperm : records.Perm records') :
    ∃ summary y y', (run name (some records)).exec x = (.ok summary, y) ∧
      (run name (some records')).exec x = (.ok summary, y') ∧
      Alike job x.1 x.2 y.2 y'.2 ∧
      (openRun job (some records')).exec x = (.ok o, start) ∧
      ∃ is is' r r' t t' calls calls',
        (runBatch o.fetcher.traced o.owned o.pool (records.map some)).exec (o.router.traced, start.2, []) =
          (.ok is, r, t, calls) ∧
        (runBatch o.fetcher.traced o.owned o.pool (records'.map some)).exec (o.router.traced, start.2, []) =
          (.ok is', r', t', calls') ∧
        summary = .ofInvocations is r.counts ∧ summary = .ofInvocations is' r'.counts ∧
        ((Effect.received calls).map (Prod.map Channel.success.undrawn id)).Perm
          ((Effect.received calls').map (Prod.map Channel.success.undrawn id)) := by
  obtain ⟨h⟩ := openRun_eq_ok hopen
  obtain ⟨vs, hgoes, -⟩ := Fetcher.invokeAll_eq_ok_iff.mp hinvocations
  obtain ⟨closed, hclosing⟩ := h.exists_closing hready hstill hgoes
  obtain ⟨summary, y, p, rfl, rfl, rfl, rfl⟩ := exists_parts hjob hopen hpool hgoes hclosing
  obtain ⟨summary', y', p', hjob', hopened, hstart, hvisits⟩ := p.exists_perm hready hstill hperm
  have hsummary := p.summary_congr p' hvisits
  have hwent := p'.went
  have hopening := p'.opening
  rw [hopened, hstart] at hwent
  rw [hjob', hopened, hstart] at hopening
  obtain ⟨r, calls, hrun, hcounts, hreceived⟩ := runBatch_traced p.pool p.went h.fails_receive
  obtain ⟨r', calls', hrun', hcounts', hreceived'⟩ := runBatch_traced p.pool hwent h.fails_receive
  refine ⟨summary, y, y', run_eq_ok_iff.mpr ⟨p⟩, run_eq_ok_iff.mpr ⟨hsummary ▸ p'⟩,
    p.alike p' hjob' hopened (fun s hs => (hstill s hs).reads) hvisits, hopening,
    _, _, r, r', _, _, calls, calls', hrun, hrun', hcounts ▸ p.counted, hcounts' ▸ hsummary.trans p'.counted,
    ?_⟩
  rw [hreceived, hreceived', List.map_map, List.map_map]
  have hnew := (perm_recordsFor hvisits .success).map fun out => (out, p.opened.fetcher.transitUri)
  rw [List.map_map, List.map_map] at hnew
  exact hnew

/-- One record of each end, and the same records from last to first. -/
theorem run_perm_sample :
    ∃ summary y y', (run "j" (some sampleRecords)).exec (sampleRunner, sampleHome) = (.ok summary, y) ∧
      (run "j" (some sampleRecords.reverse)).exec (sampleRunner, sampleHome) = (.ok summary, y') ∧
      Status.all.map summary.statuses = [1, 1, 0, 1] ∧
      ∃ job, sampleHome.layout.loadJob sampleHome.files "j" = .ok job ∧
        Alike job sampleRunner sampleHome y.2 y'.2 := by
  obtain ⟨summary, y, hrun, hstatuses, -⟩ := run_sample
  obtain ⟨p⟩ := run_eq_ok_iff.mp hrun
  have hstill (s : DocumentStore Home) (hs : Assoc.get? p.job.jobName sampleRunner.stores = some s) :
      s.Still sampleHome := by
    obtain ⟨m, rfl⟩ := sampleRunner_stores hs
    exact m.still sampleHome
  obtain ⟨summary', y₁, y', hrun₁, hrun', halike, -⟩ := run_perm ready_sample p.loaded hstill p.opening p.pool
    (Fetcher.invokeAll_eq_ok_iff.mpr ⟨_, p.went.goes, rfl⟩) sampleRecords.reverse_perm.symm
  cases hrun₁.symm.trans hrun
  exact ⟨summary, y, y', hrun, hrun', hstatuses, p.job, p.loaded, halike⟩

end Runner

end DocFetch
