import DocFetch.Job.Runner
import DocFetch.Proofs.Export.Opening
import DocFetch.Proofs.Home.Changes
import DocFetch.Proofs.Job.Visits
import DocFetch.Proofs.World.Events

/-! # Runs that returned

A run that returned loaded its job, opened what it needed, went through its batch, and closed what it opened. The
parts below name the states between these steps.
-/

namespace DocFetch.Runner

variable {α : Type} {name : String} {records : Option (List Record)} {job : JobConfig} {x y : Runner × Home}

theorem onHome_eq_ok {a : Action Home α} {v : α} (h : (onHome a).exec x = (.ok v, y)) :
    ∃ t, a.exec x.2 = (.ok v, t) ∧ y = (x.1, t) := Action.exec_zoom_eq_ok h

/-- Where a runner puts the outputs of its jobs. -/
def outputs (r : Runner) : Path := r.layout.resolve r.settings.outputsDir

/-- Where the store of a run comes from: it is shared, or it was opened in `before`. -/
inductive Source (r : Runner) (job : JobConfig) (before after : Home) : DocumentStore Home → Bool → Prop
  | shared {s : DocumentStore Home} : Assoc.get? job.jobName r.stores = some s → before = after →
      Source r job before after s false
  | opened {o : OpenStore} {world : World} : Assoc.get? job.jobName r.stores = none →
      (job.store.openStore job.fetch.bucketName (some r.layout.root)).exec before.world = (.ok o, world) →
      after = { before with world } →
      Source r job before after (o.reader.zoom Home.world fun h world => { h with world }) true

theorem openStore_eq_ok {r : Runner} {h h' : Home} {store : DocumentStore Home} {owned : Bool}
    (hopen : (r.openStore job).exec h = (.ok (store, owned), h')) : Source r job h h' store owned := by
  unfold openStore at hopen
  split at hopen
  · rename_i s hs
    cases hopen
    exact .shared hs rfl
  · rename_i hnone
    obtain ⟨o, t, hstore, hopen⟩ := Action.exec_bind_eq_ok hopen
    cases hopen
    obtain ⟨world, hworld, rfl⟩ := Action.exec_zoom_eq_ok hstore
    exact .opened hnone hworld rfl

theorem openRouter_eq_ok {directory : Path} {tag : String} {h h' : Home} {r : Router Home}
    (hopen : (openRouter job directory tag).exec h = (.ok r, h')) :
    ∃ router world, (job.output.openRouter job.jobName directory tag).exec h.world = (.ok router, world) ∧
      r = router.zoom Home.world (fun h world => { h with world }) ∧ h' = { h with world } := by
  unfold openRouter at hopen
  obtain ⟨router, t, hrouter, hopen⟩ := Action.exec_bind_eq_ok hopen
  cases hopen
  obtain ⟨world, hworld, rfl⟩ := Action.exec_zoom_eq_ok hrouter
  exact ⟨router, world, hworld, rfl, rfl⟩

/-- How a run was opened: the home before the store, before the router, and after both. -/
structure OpenedRun (job : JobConfig) (x : Runner × Home) (o : Opened) (y : Runner × Home) where
  beforeStore : Home
  beforeRouter : Home
  store : DocumentStore Home
  router : Router World
  world : World
  fetcher : o.fetcher = x.1.fetcher job store (Home.log o.logger)
  source : Source x.1 job beforeStore beforeRouter store o.owned
  opened : (job.output.openRouter job.jobName x.1.outputs x.2.now.tag).exec beforeRouter.world = (.ok router, world)
  zoomed : o.router = router.zoom Home.world fun h world => { h with world }
  logged : x.2.Changes (Resource.logs ∪ {.directories}) beforeStore
  started : Home.Changes Resource.logs { beforeRouter with world } y.2
  same : y.1 = { x.1 with pools := y.1.pools }

theorem changes_warned {es : List Log.Entry} {logger : Log.Logger} {h h₁ h₂ : Home}
    (hlogger : (Home.jobLogger job.jobName).exec h = (.ok logger, h₁))
    (hwarnings : (es.forM fun e => (Home.log logger e : StateM Home Unit) : Action Home Unit).exec h₁ = (.ok (), h₂)) :
    h.Changes (Resource.logs ∪ {.directories}) h₂ := by
  have hopened : h.Changes {.directories} h₁ := (Home.moves_jobLogger _).of_exec hlogger
  have hwarned : h₁.Changes Resource.logs h₂ :=
    (Action.Moves.forM fun e _ => .lift fun h => Home.changes_log logger e h).of_exec hwarnings
  exact (hopened.mono Set.subset_union_right).trans (hwarned.mono Set.subset_union_left)

theorem openRun_eq_ok {o : Opened} (h : (openRun job records).exec x = (.ok o, y)) :
    Nonempty (OpenedRun job x o y) := by
  unfold openRun at h
  obtain ⟨x₀, _, hget, h⟩ := Action.exec_bind_eq_ok h
  cases hget
  obtain ⟨logger, x₁, onLogger, h⟩ := Action.exec_bind_eq_ok h
  obtain ⟨h₁, hlogger, rfl⟩ := onHome_eq_ok onLogger
  obtain ⟨_, x₂, onWarnings, h⟩ := Action.exec_bind_eq_ok h
  obtain ⟨h₂, hwarnings, rfl⟩ := onHome_eq_ok onWarnings
  obtain ⟨⟨store, owned⟩, x₃, onStore, h⟩ := Action.exec_bind_eq_ok h
  obtain ⟨h₃, hstore, rfl⟩ := onHome_eq_ok onStore
  obtain ⟨x₄, _, hget, h⟩ := Action.exec_bind_eq_ok h
  cases hget
  obtain ⟨router, x₄, onRouter, h⟩ := Action.exec_bind_eq_ok h
  obtain ⟨h₄, hrouter, rfl⟩ := onHome_eq_ok onRouter
  obtain ⟨_, x₅, onStarted, h⟩ := Action.exec_bind_eq_ok h
  obtain ⟨h₅, hstarted, rfl⟩ := onHome_eq_ok onStarted
  rcases hpools : x.1.pools.jobPool job.jobName job.maxWorkers with ⟨pool, pools⟩
  rw [hpools] at h
  cases h
  obtain ⟨rt, world, hopened, rfl, rfl⟩ := openRouter_eq_ok hrouter
  have hlogged := changes_warned hlogger hwarnings
  have hsource := openStore_eq_ok hstore
  have hstarted : Home.Changes Resource.logs { h₃ with world } h₅ :=
    (Action.Moves.lift fun h => Home.changes_log logger _ h).of_exec hstarted
  refine ⟨⟨h₂, h₃, store, rt, world, rfl, hsource, ?_, rfl, hlogged, hstarted, rfl⟩⟩
  have hnow : h₃.now = x.2.now := by
    cases hsource with
    | shared _ heq => rw [← heq, hlogged.now]
    | opened _ _ heq => rw [heq, hlogged.now]
  rw [← hnow]
  exact hopened

/-! ### What a run changes besides its output -/

variable {scope : Set Resource}

theorem disjoint_outputs :
    Disjoint (Resource.logs ∪ Resource.provenance ∪ {.directories, .drawn}) Resource.outputs := by
  rw [Set.disjoint_left]
  rintro r ((⟨p, hp, rfl⟩ | ⟨p, rfl⟩) | rfl | rfl) hr
  · exact absurd (hp.symm.trans hr) (by decide)
  · exact hr
  · exact hr
  · exact hr

theorem moves_receive (r : Runner) (record : Record) (location : String) :
    (r.receive record location).Moves (Home.Changes (Resource.logs ∪ Resource.provenance ∪ {.directories})) := by
  unfold receive
  split
  · refine Action.Moves.lift fun h => (Home.changes_log _ _ h).mono ?_
    exact Set.subset_union_left.trans Set.subset_union_left
  · rename_i path _
    refine Action.Moves.get_bind fun h => ?_
    have hreport : (Provenance.report path (h.now.textWith "T") (.text Provenance.receiveKind) record
        (.text location)).Moves (Storage.Changes (Resource.logs ∪ Resource.provenance ∪ {.directories})) := by
      refine fun s => (Provenance.report_changes path _ location record s).mono ?_
      rintro x (rfl | ⟨rfl, -⟩)
      · exact .inl (.inr ⟨_, rfl⟩)
      · exact .inr rfl
    exact Home.moves_onWorld (World.moves_onStorage hreport) h

namespace Source

variable {r : Runner} {before after : Home} {store : DocumentStore Home} {owned : Bool}

theorem changes (h : Source r job before after store owned) : before.Changes {.directories} after := by
  cases h with
  | shared _ heq => exact heq ▸ .refl _ before
  | opened _ hopen heq =>
    rw [heq]
    exact .of_world ((job.store.moves_openStore job.fetch.bucketName (some r.layout.root)).of_exec hopen)

theorem reads (h : Source r job before after store owned)
    (hshared : ∀ s, Assoc.get? job.jobName r.stores = some s → s.Reads (Home.Changes scope))
    (hscope : {.directories} ⊆ scope) : store.Reads (Home.Changes scope) := by
  cases h with
  | shared hs _ => exact hshared _ hs
  | opened _ _ _ => exact (OpenStore.reads _).zoom fun _ _ hc => .of_world (hc.mono hscope)

theorem closed {s t : Home} (h : Source r job before after store owned)
    (hclose : if owned then store.close.exec s = (.ok (), t) else t = s) : s.Changes ∅ t := by
  cases h with
  | shared _ _ =>
    rw [if_neg Bool.false_ne_true] at hclose
    exact hclose ▸ .refl ∅ s
  | @opened o _ _ _ _ =>
    rw [if_pos rfl] at hclose
    obtain ⟨world, hworld, hchanges⟩ := o.exec_close s.world
    change (o.reader.close.zoom Home.world fun h world => { h with world }).exec s = _ at hclose
    obtain ⟨world', hworld', rfl⟩ := Action.exec_zoom_eq_ok hclose
    cases hworld.symm.trans hworld'
    exact .of_world hchanges

end Source

namespace OpenedRun

variable {o : Opened}

theorem changes_beforeRouter (h : OpenedRun job x o y) :
    x.2.Changes (Resource.logs ∪ {.directories}) h.beforeRouter :=
  h.logged.trans (h.source.changes.mono Set.subset_union_right)

theorem keeps (h : OpenedRun job x o y) {holds : Routed → World → Prop}
    (hkeeps : Router.Keeps h.router.exporters holds) :
    Router.Keeps o.router.exporters fun l (s : Home) => holds l s.world := by
  rw [h.zoomed]
  exact hkeeps.zoom Home.lens_world

theorem takes (h : OpenedRun job x o y) {holds : Routed → World → Prop} {accepts : Channel → Prop}
    (htakes : Router.Takes h.router.exporters holds accepts) :
    Router.Takes o.router.exporters (fun l (s : Home) => holds l s.world) accepts := by
  rw [h.zoomed]
  exact htakes.zoom

theorem keeps_and {c : OutputConfig} {name tag : String} {directory : Path} {before : World}
    {watched : Set Resource} {holds : Routed → World → Prop} {P : Home → Prop} (h : OpenedRun job x o y)
    (hledger : Ledger c name directory tag before watched h.router holds)
    (hP : ∀ s t, P s → Home.Changes Resource.outputs s t → P t) :
    Router.Keeps o.router.exporters fun l (s : Home) => holds l s.world ∧ P s where
  exporter := (h.keeps hledger.keeps).exporter
  write {c e l record s t} he hl hwrite := by
    refine ⟨(h.keeps hledger.keeps).write he hl.1 hwrite, hP s t hl.2 ?_⟩
    rw [h.zoomed, Router.zoom, Router.get?_zoom, Option.map_eq_some_iff] at he
    obtain ⟨e, he, rfl⟩ := he
    change ((e.write record).zoom Home.world fun s world => { s with world }).exec s = (.ok (), t) at hwrite
    obtain ⟨world, hworld, rfl⟩ := Action.exec_zoom_eq_ok hwrite
    exact .of_world (hledger.writes hl.1 he hworld)

theorem closing_eq_ok_iff (h : OpenedRun job x o y) (transfers : List Transfer) {s t : Home} :
    (o.router.counted transfers).closing.exec s = (.ok (), t) ↔
      ∃ world, h.router.closing.exec s.world = (.ok (), world) ∧ t = { s with world } := by
  have hsame : (o.router.counted transfers).closing =
      h.router.closing.zoom Home.world fun h world => { h with world } := by
    rw [← Router.closing_zoom Home.lens_world, ← h.zoomed]
    rfl
  rw [hsame]
  constructor
  · exact Action.exec_zoom_eq_ok
  · rintro ⟨world, hworld, rfl⟩
    rw [Action.exec_zoom, hworld]

theorem leads (h : OpenedRun job x o y)
    (hshared : ∀ s, Assoc.get? job.jobName x.1.stores = some s → s.Reads (Home.Changes scope))
    (hscope : Resource.logs ∪ Resource.provenance ∪ {.directories, .drawn} ⊆ scope) :
    o.fetcher.Leads (Home.Changes scope) := by
  have hdirectories : {.directories} ⊆ scope := by
    rintro r rfl
    exact hscope (.inr (.inl rfl))
  rw [h.fetcher]
  refine ⟨h.source.reads hshared hdirectories, fun s => ?_, fun r location => ?_, fun e s => ?_⟩
  · refine (Home.changes_draw s).mono ?_
    rintro r rfl
    exact hscope (.inr (.inr rfl))
  · refine (x.1.moves_receive r location).mono fun _ _ hc => hc.mono ?_
    exact Set.union_subset (Set.subset_union_left.trans hscope) hdirectories
  · refine (Home.changes_log _ e s).mono ?_
    exact (Set.subset_union_left.trans Set.subset_union_left).trans hscope

theorem upholds {c : OutputConfig} {name tag : String} {directory : Path} {before : World}
    {holds : Routed → World → Prop} (h : OpenedRun job x o y)
    (hledger : Ledger c name directory tag before Resource.outputs h.router holds)
    (hshared : ∀ s, Assoc.get? job.jobName x.1.stores = some s → s.Reads (Home.Changes Resource.outputsᶜ)) :
    o.fetcher.Upholds (fun _ _ => True) fun _ l s => holds l s.world :=
  (h.leads hshared disjoint_outputs.subset_compl_right).upholds fun hl hc =>
    hledger.stable hl hc.world disjoint_compl_left

end OpenedRun

/-! ## The batch -/

/-- How a run went through its batch and closed what was open: the states after the batch and after the router
was closed. -/
structure Went {σ : Type} (f : Fetcher σ) (owned : Bool) (batch : List (Option Record)) (x : Router σ × σ)
    (vs : List Visit) (y : Router σ × σ) (closed : σ) (t : σ) : Prop where
  goes : f.Goes batch x vs y
  closing : y.1.closing.exec y.2 = (.ok (), closed)
  store : if owned then f.store.close.exec closed = (.ok (), t) else t = closed

theorem close_eq_ok_iff {σ : Type} {r r' : Router σ} {s t : σ} :
    Router.close.exec (r, s) = (.ok (), r', t) ↔ r.closing.exec s = (.ok (), t) ∧ r' = { r with release := [] } := by
  rw [Router.exec_close]
  rcases r.closing.exec s with ⟨ended, u⟩
  cases ended with
  | ok _ =>
    constructor
    · intro h
      cases h
      exact ⟨rfl, rfl⟩
    · rintro ⟨h, rfl⟩
      cases h
      rfl
  | error e => exact ⟨nofun, nofun⟩

theorem runBatch_eq_ok_iff {σ : Type} {f : Fetcher σ} {owned : Bool} {pool : Except Failure Pool}
    {batch : List (Option Record)} {x : Router σ × σ} {r : Router σ} {t : σ} {is : List Invocation} :
    (runBatch f owned pool batch).exec x = (.ok is, r, t) ↔
      (∃ p, pool = .ok p) ∧ ∃ vs y closed, Went f owned batch x vs y closed t ∧ is = vs.map Visit.invocation ∧
        r = { y.1 with release := [] } := by
  unfold runBatch
  rw [Action.exec_ensuring_eq_ok_iff]
  constructor
  · rintro ⟨y, hbatch, hlast⟩
    obtain ⟨_, x', hpool, hall⟩ := Action.exec_bind_eq_ok hbatch
    obtain ⟨p, hp⟩ := Action.exec_discard_eq_ok hpool
    rw [Action.exec_ofExcept, Prod.mk.injEq] at hp
    obtain ⟨rfl, rfl⟩ := hp
    obtain ⟨vs, hgoes, rfl⟩ := Fetcher.invokeAll_eq_ok_iff.mp hall
    obtain ⟨_, ⟨r', closed⟩, hclose, hstore⟩ := Action.exec_bind_eq_ok hlast
    obtain ⟨hclosing, rfl⟩ := close_eq_ok_iff.mp hclose
    refine ⟨⟨p, rfl⟩, vs, y, closed, ?_⟩
    cases owned with
    | true =>
      rw [if_pos rfl, Router.exec_beside, Prod.mk.injEq, Prod.mk.injEq] at hstore
      obtain ⟨hresult, rfl, rfl⟩ := hstore
      exact ⟨⟨hgoes, hclosing, Prod.ext hresult rfl⟩, rfl, rfl⟩
    | false =>
      cases hstore
      exact ⟨⟨hgoes, hclosing, rfl⟩, rfl, rfl⟩
  · rintro ⟨⟨p, rfl⟩, vs, y, closed, ⟨hgoes, hclosing, hstore⟩, rfl, rfl⟩
    refine ⟨y, ?_, ?_⟩
    · rw [Action.exec_bind_ok (t := x) (v := ()) (by rw [Action.exec_discard]; rfl)]
      exact Fetcher.invokeAll_eq_ok_iff.mpr ⟨vs, hgoes, rfl⟩
    · rw [Action.exec_bind_ok (close_eq_ok_iff.mpr ⟨hclosing, rfl⟩)]
      cases owned with
      | true =>
        rw [if_pos rfl] at hstore ⊢
        rw [Router.exec_beside, hstore]
      | false =>
        cases hstore
        rfl

theorem goThrough_eq_ok_iff {o : Opened} {batch : List (Option Record)} {h t : Home} {is : List Invocation}
    {counts : Channel → Nat} :
    (goThrough o batch).exec h = (.ok (is, counts), t) ↔
      ∃ r, (runBatch o.fetcher o.owned o.pool batch).exec (o.router, h) = (.ok is, r, t) ∧ counts = r.counts := by
  unfold goThrough
  rw [Action.exec_ofFunction]
  rcases (runBatch o.fetcher o.owned o.pool batch).exec (o.router, h) with ⟨ended, r, u⟩
  cases ended with
  | ok js =>
    constructor
    · intro hok
      cases hok
      exact ⟨r, rfl, rfl⟩
    · rintro ⟨r', hok, rfl⟩
      cases hok
      rfl
  | error e => exact ⟨nofun, nofun⟩

/-! ## The run -/

def finishedEntry (summary : Summary) : Log.Entry :=
  ⟨.info, "job_finished", summary.fields.map fun (k, n) => (k, .int n)⟩

/-- The parts of a run that returned. -/
structure RunParts (name : String) (records : Option (List Record)) (x : Runner × Home) (summary : Summary)
    (y : Runner × Home) where
  job : JobConfig
  opened : Opened
  start : Runner × Home
  visits : List Visit
  after : Router Home × Home
  closed : Home
  ended : Home
  loaded : x.1.layout.loadJob x.2.files name = .ok job
  opening : (openRun job records).exec x = (.ok opened, start)
  pool : ∃ p, opened.pool = .ok p
  went : Went opened.fetcher opened.owned (batchOf records) (opened.router, start.2) visits after closed ended
  counted : summary = .ofInvocations (visits.map Visit.invocation) after.1.counts
  finished : y = (start.1, ((Home.log opened.logger (finishedEntry summary)).run ended).2)

theorem run_eq_ok_iff {summary : Summary} :
    (run name records).exec x = (.ok summary, y) ↔ Nonempty (RunParts name records x summary y) := by
  unfold run
  rw [Action.exec_bind_ok (Action.exec_get x)]
  constructor
  · intro h
    obtain ⟨job, x', onLook, h⟩ := Action.exec_bind_eq_ok h
    obtain ⟨h', hlook, rfl⟩ := onHome_eq_ok onLook
    obtain ⟨_, h'', hget, hload⟩ := Action.exec_bind_eq_ok hlook
    cases hget
    rw [Action.exec_ofExcept, Prod.mk.injEq] at hload
    obtain ⟨hload, rfl⟩ := hload
    obtain ⟨o, start, hopen, h⟩ := Action.exec_bind_eq_ok h
    obtain ⟨⟨is, counts⟩, z, onBatch, h⟩ := Action.exec_bind_eq_ok h
    obtain ⟨ended, hbatch, rfl⟩ := onHome_eq_ok onBatch
    obtain ⟨r, hrun, rfl⟩ := goThrough_eq_ok_iff.mp hbatch
    obtain ⟨hpool, vs, after, closed, hwent, rfl, rfl⟩ := runBatch_eq_ok_iff.mp hrun
    cases h
    exact ⟨⟨job, o, start, vs, after, closed, ended, hload, hopen, hpool, hwent, rfl, rfl⟩⟩
  · rintro ⟨⟨job, o, start, vs, after, closed, ended, hload, hopen, hpool, hwent, rfl, rfl⟩⟩
    have hlook : (onHome (Home.look fun files => x.1.layout.loadJob files name)).exec x = (.ok job, x) := by
      rw [onHome, Action.exec_zoom, Home.look, Action.exec_bind_ok (Action.exec_get x.2), Action.exec_ofExcept,
        hload]
    have hbatch : (onHome (goThrough o (batchOf records))).exec start =
        (.ok (vs.map Visit.invocation, after.1.counts), start.1, ended) := by
      have hrun := runBatch_eq_ok_iff.mpr ⟨hpool, vs, after, closed, hwent, rfl, rfl⟩
      rw [onHome, Action.exec_zoom, goThrough_eq_ok_iff.mpr ⟨_, hrun, rfl⟩]
    rw [Action.exec_bind_ok hlook, Action.exec_bind_ok hopen, Action.exec_bind_ok hbatch]
    rfl

theorem RunParts.changes_closed {summary : Summary} (p : RunParts name records x summary y) :
    p.closed.Changes Resource.logs y.2 := by
  obtain ⟨h⟩ := openRun_eq_ok p.opening
  have hstore := p.went.store
  rw [h.fetcher] at hstore
  have hfinished := Home.changes_log p.opened.logger (finishedEntry summary) p.ended
  rw [← congrArg Prod.snd p.finished] at hfinished
  exact ((h.source.closed hstore).mono (Set.empty_subset _)).trans hfinished

/-! ## A home to run in -/

/-- A home with one job, `j`, that writes lines and finds its ids in payloads. Its provenance is connected. -/
def sampleHome : Home where
  layout := ⟨⟨"/", ["h"]⟩⟩
  world := { storage := ((do
    modify fun s => { s with files := ⟨[(⟨"/", ["h"]⟩, .directory), (⟨"/", ["h", "data"]⟩, .directory),
      (⟨"/", ["h", "data", "jobs"]⟩, .directory), (⟨"/", ["h", "data", "jobs", "j.yaml"]⟩,
        .file (Text.encodeUtf8 "job_name: j\nfetch:\n  cluster_service: main\n"))]⟩ }
    discard <| Storage.connect ⟨"/", ["h", "provenance.db"]⟩ : Action Storage Unit).exec {}).2 }
  now := ⟨⟨2024, 1, 2⟩, ⟨3, 4, 5, 0⟩, some 0⟩
  uuid n := String.ofList (List.replicate n 'u')

/-- The runner of that home; the store of its job is shared and holds one document. -/
def sampleRunner : Runner where
  layout := sampleHome.layout
  settings := {}
  provenance := .database ⟨"/", ["h", "provenance.db"]⟩
  pools := {}
  stores := [("j", (MemoryStore.upsertJson {} "k" "document").2.reader)]

/-- Records that are found, missing and without an id. -/
def sampleRecords : List Record :=
  [⟨"a", [], Text.encodeUtf8 "k"⟩, ⟨"b", [], Text.encodeUtf8 "gone"⟩, ⟨"c", [], .empty⟩]

theorem sampleRunner_stores {n : String} {s : DocumentStore Home}
    (h : Assoc.get? n sampleRunner.stores = some s) : ∃ m : MemoryStore, s = m.reader := by
  unfold sampleRunner Assoc.get? at h
  split at h
  · cases h
    exact ⟨_, rfl⟩
  · cases h

theorem run_sample :
    ∃ summary y, (run "j" (some sampleRecords)).exec (sampleRunner, sampleHome) = (.ok summary, y) ∧
      Status.all.map summary.statuses = [1, 1, 0, 1] ∧ Channel.all.map summary.channels = [1, 1, 0, 1] := by
  obtain ⟨summary, y, hrun, hcounts⟩ := Action.exec_eq_ok_of_any (P := fun summary : Summary =>
    Status.all.map summary.statuses = [1, 1, 0, 1] ∧ Channel.all.map summary.channels = [1, 1, 0, 1])
    (show ((run "j" (some sampleRecords)).exec (sampleRunner, sampleHome)).1.toOption.any _ = true by decide +kernel)
  exact ⟨summary, y, hrun, of_decide_eq_true hcounts⟩

end DocFetch.Runner
