import DocFetch.Proofs.Export.Marking
import DocFetch.Proofs.Job.Opening

/-! # How runs end

A run opens its log, its store and its output, in this order, and then goes through its batch. However the batch
ends, its router is closed, and then its store, if it is the run's own and the router closed well. A run that came
to an end before its batch closes nothing.
-/

namespace DocFetch

variable {σ τ α β ι : Type}

/-! ## Fetchers seen from a larger state -/

namespace Fetcher

variable {get : σ → τ} {set : σ → τ → σ} {f : Fetcher τ}

/-- The fetcher seen from a larger state. -/
def zoom (get : σ → τ) (set : σ → τ → σ) (f : Fetcher τ) : Fetcher σ where
  config := f.config
  store := f.store.zoom get set
  resolver := f.resolver
  draw := fun s => let (uuid, t) := f.draw.run (get s); (uuid, set s t)
  receive := fun record location => (f.receive record location).zoom get set
  log := fun entry s => let (u, t) := (f.log entry).run (get s); (u, set s t)

theorem read_zoom (id : String) : (f.zoom get set).read id = (f.read id).zoom get set := by
  refine Action.ext fun s => ?_
  cases htype : f.config.documentType with
  | json =>
    rw [exec_read_json (f := f.zoom get set) htype, Action.exec_zoom, exec_read_json htype]
    rfl
  | binary =>
    rw [exec_read_binary (f := f.zoom get set) htype, Action.exec_zoom, exec_read_binary htype]
    rfl

theorem conclude_zoom (hlens : Action.Lens get set) (record : Option Record) (id : String) (result : FetchResult) :
    (f.zoom get set).conclude record id result = (f.conclude record id result).zoom get set := by
  cases result with
  | found content cas expiry =>
    unfold conclude
    simp only [hlens.zoom_bind, hlens.zoom_pure]
    rfl
  | notFound e => rfl
  | storeError e => rfl

theorem fetch_zoom (hlens : Action.Lens get set) (record : Option Record) :
    (f.zoom get set).fetch record = (f.fetch record).zoom get set := by
  unfold fetch
  simp only [hlens.zoom_bind, hlens.zoom_pure, Action.zoom_attempt, hlens.zoom_ofExcept, read_zoom,
    conclude_zoom hlens]
  rfl

theorem abort_zoom (hlens : Action.Lens get set) (record : Option Record) (e : Failure) :
    (f.zoom get set).abort record e = (f.abort record e).zoom get set := by
  unfold abort
  split
  · rw [hlens.zoom_bind, hlens.zoom_pure]
    rfl
  · exact (hlens.zoom_ofExcept _).symm

theorem attend_zoom (hlens : Action.Lens get set) (record : Option Record) :
    (f.zoom get set).attend record = (f.attend record).zoom get set := by
  unfold attend
  rw [hlens.zoom_bind, Action.zoom_attempt, ← fetch_zoom hlens]
  congr 1
  funext ended
  cases ended with
  | ok o => exact (hlens.zoom_pure _).symm
  | error e => exact abort_zoom hlens record e

end Fetcher

/-! ## Marked batches -/

/-- What a run asks for: something of its router, or the closing of its store. -/
inductive Part
  | router (o : Operation)
  | store
deriving DecidableEq

/-- The fetcher that also keeps whether its store was closed. -/
def Fetcher.watched (f : Fetcher σ) : Fetcher (σ × Asked Part) :=
  let seen : Fetcher (σ × Asked Part) := f.zoom Prod.fst fun s t => (t, s.2)
  { seen with store := { seen.store with close := f.store.close.marked .store } }

/-- Whether nothing but writing was asked for. -/
def OnlyWrites (asked : Asked Operation) : Prop := ∀ a ∈ asked, ∃ t, a.1 = .ofTransfer t

theorem OnlyWrites.append {asked more : Asked Operation} (h : OnlyWrites asked) (h' : OnlyWrites more) :
    OnlyWrites (asked ++ more) := List.forall_mem_append.mpr ⟨h, h'⟩

open Router

/-- The second action goes on a marked router as the first one does on the router, and both only hand over. -/
def HandsOver (label : Operation → ι) (a : Action (Router σ × σ) α)
    (b : Action (Router (σ × Asked ι) × (σ × Asked ι)) α) : Prop :=
  ∀ x before, ∃ handed asked, OnlyWrites asked ∧ (a.exec x).2.1 = x.1.counted handed ∧
    b.exec (markedAt label x before) =
      ((a.exec x).1, markedAt label (a.exec x).2 (before ++ asked.relabel label))

namespace HandsOver

variable {label : Operation → ι}

theorem of_same {a : Action (Router σ × σ) α} {b : Action (Router (σ × Asked ι) × (σ × Asked ι)) α}
    (hrouter : ∀ x, (a.exec x).2.1 = x.1)
    (h : ∀ x before, b.exec (markedAt label x before) = ((a.exec x).1, markedAt label (a.exec x).2 before)) :
    HandsOver label a b := by
  intro x before
  refine ⟨[], [], fun _ ha => absurd ha List.not_mem_nil, by rw [hrouter, counted_nil], ?_⟩
  rw [h, Asked.relabel_nil, List.append_nil]

theorem pure (v : α) : HandsOver (σ := σ) label (pure v) (pure v) := of_same (fun _ => rfl) fun _ _ => rfl

theorem ofExcept (r : Except Failure α) : HandsOver (σ := σ) label (Action.ofExcept r) (Action.ofExcept r) :=
  of_same (fun _ => rfl) fun _ _ => rfl

theorem beside (a : Action σ α) :
    HandsOver label (Router.beside a) (Router.beside (a.zoom Prod.fst fun s t => (t, s.2))) :=
  of_same (fun _ => rfl) fun _ _ => rfl

theorem route (transfers : List Transfer) :
    HandsOver (σ := σ) label (Router.route transfers) (Router.route transfers) := by
  intro x before
  obtain ⟨handed, asked, hhanded, hcounted, hexec⟩ := exec_route_marked label transfers x before
  refine ⟨handed, asked, fun a ha => ?_, hcounted, hexec⟩
  obtain ⟨t, -, ht⟩ := hhanded.mem ha
  exact ⟨t, ht⟩

theorem bind {a : Action (Router σ × σ) α} {b : Action (Router (σ × Asked ι) × (σ × Asked ι)) α}
    {f : α → Action (Router σ × σ) β} {g : α → Action (Router (σ × Asked ι) × (σ × Asked ι)) β}
    (h : HandsOver label a b) (hrest : ∀ v, HandsOver label (f v) (g v)) :
    HandsOver label (a >>= f) (b >>= g) := by
  intro x before
  obtain ⟨handed, asked, hwrites, hcounted, hexec⟩ := h x before
  rcases ha : a.exec x with ⟨ended, y⟩
  rw [ha] at hcounted hexec
  cases ended with
  | error e =>
    rw [Action.exec_bind_error ha, Action.exec_bind_error hexec]
    exact ⟨handed, asked, hwrites, hcounted, rfl⟩
  | ok v =>
    rw [Action.exec_bind_ok ha, Action.exec_bind_ok hexec]
    obtain ⟨handed', asked', hwrites', hcounted', hexec'⟩ := hrest v y (before ++ asked.relabel label)
    refine ⟨handed ++ handed', asked ++ asked', hwrites.append hwrites', ?_, ?_⟩
    · rw [hcounted', hcounted, counted_append]
    · rw [hexec', Asked.relabel_append, List.append_assoc]

theorem mapM {f : β → Action (Router σ × σ) α} {g : β → Action (Router (σ × Asked ι) × (σ × Asked ι)) α}
    (h : ∀ v, HandsOver label (f v) (g v)) (l : List β) : HandsOver label (l.mapM f) (l.mapM g) := by
  induction l with
  | nil => exact pure []
  | cons v rest ih =>
    rw [List.mapM_cons, List.mapM_cons]
    exact (h v).bind fun _ => ih.bind fun _ => pure _

end HandsOver

namespace Fetcher

variable {f : Fetcher σ}

theorem lens_asked : Action.Lens Prod.fst fun (s : σ × Asked ι) t => (t, s.2) :=
  ⟨fun _ _ => rfl, fun _ => rfl, fun _ _ _ => rfl⟩

theorem attend_watched (record : Option Record) :
    f.watched.attend record = (f.attend record).zoom Prod.fst fun s t => (t, s.2) := by
  rw [← attend_zoom lens_asked]
  rfl

theorem handsOver_invokeAll (f : Fetcher σ) (batch : List (Option Record)) :
    HandsOver .router (f.invokeAll batch) (f.watched.invokeAll batch) := by
  unfold invokeAll
  refine .mapM (fun record => ?_) batch
  rw [invoke_eq, invoke_eq, attend_watched]
  exact (HandsOver.beside _).bind fun v => (HandsOver.route _).bind fun _ => .pure _

end Fetcher

namespace Runner

/-- What closing at the end of a run asks for: the router is closed, and if that went well the store, where it is
the run's own. -/
inductive Disposal (plan : List Operation) (owned : Bool) : Except Failure Unit → Asked Part → Prop
  | broken {f : Failure} {asked : Asked Operation} : Ran plan (.error f) asked →
      Disposal plan owned (.error f) (asked.relabel .router)
  | kept : owned = false → Disposal plan owned (.ok ()) ((Asked.done plan).relabel .router)
  | closed {ended : Except Failure Unit} : owned = true →
      Disposal plan owned ended ((Asked.done plan).relabel .router ++ [(.store, ended)])

/-- The last part of a run. -/
def dispose (f : Fetcher σ) (owned : Bool) : Action (Router σ × σ) Unit := do
  Router.close
  if owned then Router.beside f.store.close

theorem exec_beside_marked (a : Action σ Unit) (y : Router σ × σ) (before : Asked Part) :
    (Router.beside (a.marked Part.store)).exec (markedAt .router y before) =
      (((Router.beside a).exec y).1,
        markedAt .router ((Router.beside a).exec y).2 (before ++ [(.store, ((Router.beside a).exec y).1)])) := rfl

theorem exec_dispose_marked (f : Fetcher σ) (owned : Bool) (y : Router σ × σ) (before : Asked Part) :
    ∃ asked, Disposal y.1.plan owned ((dispose f owned).exec y).1 asked ∧
      (dispose f.watched owned).exec (markedAt .router y before) =
        (((dispose f owned).exec y).1, markedAt .router ((dispose f owned).exec y).2 (before ++ asked)) := by
  obtain ⟨asked, hclosed, hexec⟩ := exec_close_marked .router y before
  have hran := hclosed.ran
  unfold dispose
  rcases hclose : close.exec y with ⟨ended, z⟩
  rw [hclose] at hran hexec
  cases ended with
  | error e =>
    rw [Action.exec_bind_error hclose, Action.exec_bind_error hexec]
    exact ⟨_, .broken hran, rfl⟩
  | ok _ =>
    rw [Action.exec_bind_ok hclose, Action.exec_bind_ok hexec, hran.eq_done]
    cases owned with
    | false => exact ⟨_, .kept rfl, rfl⟩
    | true =>
      refine ⟨_, .closed rfl, ?_⟩
      rw [← List.append_assoc]
      exact exec_beside_marked f.store.close z _

/-- A run of a batch up to its last part. -/
def batchPart (f : Fetcher σ) (pool : Except Failure Pool) (batch : List (Option Record)) :
    Action (Router σ × σ) (List Invocation) := do
  discard <| Action.ofExcept pool
  f.invokeAll batch

theorem exec_runBatch (f : Fetcher σ) (owned : Bool) (pool : Except Failure Pool) (batch : List (Option Record))
    (x : Router σ × σ) :
    (runBatch f owned pool batch).exec x =
      (((dispose f owned).exec ((batchPart f pool batch).exec x).2).1 >>= fun _ => ((batchPart f pool batch).exec x).1,
        ((dispose f owned).exec ((batchPart f pool batch).exec x).2).2) :=
  Action.exec_ensuring (batchPart f pool batch) (dispose f owned) x

theorem handsOver_batchPart (f : Fetcher σ) (pool : Except Failure Pool) (batch : List (Option Record)) :
    HandsOver .router (batchPart f pool batch) (batchPart f.watched pool batch) := by
  refine .bind ?_ fun _ => f.handsOver_invokeAll batch
  cases pool with
  | ok p => exact .pure ()
  | error e => exact .ofExcept (.error e)

/-- A marked run of a batch goes as the run does. However its batch ended, what it opened is closed, and a failure of
that hides how the batch ended. -/
theorem exec_runBatch_marked (f : Fetcher σ) (owned : Bool) (pool : Except Failure Pool)
    (batch : List (Option Record)) (x : Router σ × σ) :
    ∃ written disposal last, OnlyWrites written ∧ Disposal x.1.plan owned disposal last ∧
      ((runBatch f owned pool batch).exec x).1 = (disposal >>= fun _ => ((batchPart f pool batch).exec x).1) ∧
      (runBatch f.watched owned pool batch).exec (markedAt .router x []) =
        (((runBatch f owned pool batch).exec x).1,
          markedAt .router ((runBatch f owned pool batch).exec x).2 (written.relabel .router ++ last)) := by
  obtain ⟨handed, written, hwrites, hcounted, hexec⟩ := handsOver_batchPart f pool batch x []
  obtain ⟨last, hdisposal, hlast⟩ :=
    exec_dispose_marked f owned ((batchPart f pool batch).exec x).2 ([] ++ written.relabel .router)
  have hplan : ((batchPart f pool batch).exec x).2.1.plan = x.1.plan := by
    rw [hcounted]
    rfl
  rw [hplan] at hdisposal
  refine ⟨written, _, last, hwrites, hdisposal, congrArg Prod.fst (exec_runBatch f owned pool batch x), ?_⟩
  rw [exec_runBatch, exec_runBatch, hexec, hlast, List.nil_append]

/-! ## Runs -/

variable {name : String} {records : Option (List Record)} {job : JobConfig} {x y : Runner × Home}

/-- How opening a run ends: at its log, at its store, at its output, or well. -/
inductive Opening (job : JobConfig) (x : Runner × Home) : Except Failure Opened → Runner × Home → Prop
  | unlogged {e : Failure} {h : Home} : (Home.jobLogger job.jobName).exec x.2 = (.error e, h) →
      Opening job x (.error e) (x.1, h)
  | unstored {e : Failure} {before h : Home} : x.2.Changes (Resource.logs ∪ {.directories}) before →
      (x.1.openStore job).exec before = (.error e, h) → Opening job x (.error e) (x.1, h)
  | unrouted {e : Failure} {before after h : Home} {store : DocumentStore Home} {owned : Bool} :
      x.2.Changes (Resource.logs ∪ {.directories}) before → Source x.1 job before after store owned →
      (openRouter job x.1.outputs after.now.tag).exec after = (.error e, h) → Opening job x (.error e) (x.1, h)
  | opened {o : Opened} {y : Runner × Home} : OpenedRun job x o y → Opening job x (.ok o) y

theorem onHome_eq_error {a : Action Home α} {e : Failure} (h : (onHome a).exec x = (.error e, y)) :
    ∃ t, a.exec x.2 = (.error e, t) ∧ y = (x.1, t) := by
  rw [onHome, Action.exec_zoom, Prod.mk.injEq] at h
  obtain ⟨hended, hstate⟩ := h
  exact ⟨(a.exec x.2).2, Prod.ext hended rfl, hstate.symm⟩

theorem exec_logAll (log : Log.Entry → StateM Home Unit) (es : List Log.Entry) (h : Home) :
    ((es.forM fun e => (log e : StateM Home Unit) : Action Home Unit).exec h).1 = .ok () := by
  induction es generalizing h with
  | nil => rfl
  | cons e rest ih =>
    rw [List.forM_eq_forM, List.forM_cons, Action.exec_bind_ok (Action.exec_lift (log e) h)]
    exact ih _

theorem opening (job : JobConfig) (records : Option (List Record)) (x : Runner × Home) :
    Opening job x ((openRun job records).exec x).1 ((openRun job records).exec x).2 := by
  rcases hopen : (openRun job records).exec x with ⟨ended, y⟩
  cases ended with
  | ok o =>
    obtain ⟨h⟩ := openRun_eq_ok hopen
    exact .opened h
  | error e =>
    unfold openRun at hopen
    rw [Action.exec_bind_ok (Action.exec_get x)] at hopen
    rcases Action.exec_bind_eq_error hopen with onLogger | ⟨logger, x₁, onLogger, hopen⟩
    · obtain ⟨h₁, hlogger, rfl⟩ := onHome_eq_error onLogger
      exact .unlogged hlogger
    obtain ⟨h₁, hlogger, rfl⟩ := onHome_eq_ok onLogger
    rcases Action.exec_bind_eq_error hopen with onWarnings | ⟨_, x₂, onWarnings, hopen⟩
    · obtain ⟨h₂, hwarnings, -⟩ := onHome_eq_error onWarnings
      have hlogged := exec_logAll (Home.log logger) (x.1.storeWarnings job) h₁
      rw [hwarnings] at hlogged
      cases hlogged
    obtain ⟨h₂, hwarnings, rfl⟩ := onHome_eq_ok onWarnings
    have hlogged := changes_warned hlogger hwarnings
    rcases Action.exec_bind_eq_error hopen with onStore | ⟨⟨store, owned⟩, x₃, onStore, hopen⟩
    · obtain ⟨h₃, hstore, rfl⟩ := onHome_eq_error onStore
      exact .unstored hlogged hstore
    obtain ⟨h₃, hstore, rfl⟩ := onHome_eq_ok onStore
    rw [Action.exec_bind_ok (Action.exec_get _)] at hopen
    rcases Action.exec_bind_eq_error hopen with onRouter | ⟨router, x₄, onRouter, hopen⟩
    · obtain ⟨h₄, hrouter, rfl⟩ := onHome_eq_error onRouter
      exact .unrouted hlogged (openStore_eq_ok hstore) hrouter
    -- What is left logs and gets a pool, and neither fails here.
    rcases Action.exec_bind_eq_error hopen with onStarted | ⟨_, x₅, -, hopen⟩
    · obtain ⟨h₅, hstarted, -⟩ := onHome_eq_error onStarted
      cases hstarted
    · cases hopen

/-- How a run of a batch went: how it ended and what it left are those of the run, what it asked for is told by the
marked run. -/
structure BatchEnded (o : Opened) (batch : List (Option Record)) (h : Home)
    (ended : Except Failure (List Invocation)) (z : Router Home × Home) (written : Asked Operation)
    (disposal : Except Failure Unit) (last : Asked Part) : Prop where
  ran : (runBatch o.fetcher o.owned o.pool batch).exec (o.router, h) = (ended, z)
  marked : (runBatch o.fetcher.watched o.owned o.pool batch).exec (markedAt .router (o.router, h) []) =
    (ended, markedAt .router z (written.relabel .router ++ last))
  writes : OnlyWrites written
  disposed : Disposal o.router.plan o.owned disposal last
  ended : ∃ before, ended = (disposal >>= fun _ => before)

theorem batchEnded (o : Opened) (batch : List (Option Record)) (h : Home) :
    ∃ ended z written disposal last, BatchEnded o batch h ended z written disposal last := by
  obtain ⟨written, disposal, last, hwrites, hdisposal, hended, hmarked⟩ :=
    exec_runBatch_marked o.fetcher o.owned o.pool batch (o.router, h)
  exact ⟨_, _, written, disposal, last, rfl, hmarked, hwrites, hdisposal, _, hended⟩

/-- How a run ends. What it opened decides what it closes: nothing until there is a router, and from then on the
router and its own store. -/
inductive Ending (name : String) (records : Option (List Record)) (x : Runner × Home) :
    Except Failure Summary → Runner × Home → Prop
  | unloaded {e : Failure} : x.1.layout.loadJob x.2.files name = .error e → Ending name records x (.error e) x
  | unopened {job : JobConfig} {e : Failure} {y : Runner × Home} : x.1.layout.loadJob x.2.files name = .ok job →
      Opening job x (.error e) y → Ending name records x (.error e) y
  | failed {job : JobConfig} {o : Opened} {start : Runner × Home} {e : Failure} {z : Router Home × Home}
      {written : Asked Operation} {disposal : Except Failure Unit} {last : Asked Part} :
      x.1.layout.loadJob x.2.files name = .ok job → OpenedRun job x o start →
      BatchEnded o (batchOf records) start.2 (.error e) z written disposal last →
      Ending name records x (.error e) (start.1, z.2)
  | returned {job : JobConfig} {o : Opened} {start : Runner × Home} {is : List Invocation} {z : Router Home × Home}
      {written : Asked Operation} {last : Asked Part} :
      x.1.layout.loadJob x.2.files name = .ok job → OpenedRun job x o start →
      BatchEnded o (batchOf records) start.2 (.ok is) z written (.ok ()) last →
      Ending name records x (.ok (.ofInvocations is z.1.counts))
        (start.1, ((Home.log o.logger (finishedEntry (.ofInvocations is z.1.counts))).run z.2).2)

theorem exec_goThrough {o : Opened} {batch : List (Option Record)} {h : Home} {z : Router Home × Home}
    {ended : Except Failure (List Invocation)}
    (hran : (runBatch o.fetcher o.owned o.pool batch).exec (o.router, h) = (ended, z)) :
    (goThrough o batch).exec h = (ended.map fun is => (is, z.1.counts), z.2) := by
  unfold goThrough
  rw [Action.exec_ofFunction, hran]

/-- Every run ends in one of these ways. The batch is gone through in order here; with workers that take their steps in
any order, what a run closes is closed in the same way, and what they hand over comes before it if they all end well
(`Workers.System.told_of_run`, `Workers.System.written_before_closed`). -/
theorem run_ends (name : String) (records : Option (List Record)) (x : Runner × Home) :
    Ending name records x ((run name records).exec x).1 ((run name records).exec x).2 := by
  unfold run
  rw [Action.exec_bind_ok (Action.exec_get x)]
  have hlook : (onHome (Home.look fun files => x.1.layout.loadJob files name)).exec x =
      (x.1.layout.loadJob x.2.files name, x) := by
    rw [onHome, Action.exec_zoom, Home.look, Action.exec_bind_ok (Action.exec_get x.2), Action.exec_ofExcept]
  cases hload : x.1.layout.loadJob x.2.files name with
  | error e =>
    rw [hload] at hlook
    rw [Action.exec_bind_error hlook]
    exact .unloaded hload
  | ok job =>
    rw [hload] at hlook
    rw [Action.exec_bind_ok hlook]
    have hopening := opening job records x
    rcases hopen : (openRun job records).exec x with ⟨ended, start⟩
    rw [hopen] at hopening
    cases ended with
    | error e =>
      rw [Action.exec_bind_error hopen]
      exact .unopened hload hopening
    | ok o =>
      rw [Action.exec_bind_ok hopen]
      obtain ⟨h⟩ := openRun_eq_ok hopen
      obtain ⟨ended, z, written, disposal, last, hbatch⟩ := batchEnded o (batchOf records) start.2
      have hgone : (onHome (goThrough o (batchOf records))).exec start =
          (ended.map fun is => (is, z.1.counts), start.1, z.2) := by
        rw [onHome, Action.exec_zoom, exec_goThrough hbatch.ran]
      cases ended with
      | error e =>
        rw [Action.exec_bind_error hgone]
        exact .failed hload h hbatch
      | ok is =>
        rw [Action.exec_bind_ok hgone]
        obtain ⟨before, hended⟩ := hbatch.ended
        cases disposal with
        | error e => cases hended
        | ok _ =>
          have hend := Ending.returned hload h hbatch
          exact hend

/-! ## A store that stays open -/

/-- A home with a job, `j`, that reads from a document database and writes to a database for whose file there is a
directory. -/
def blockedHome : Home where
  layout := ⟨⟨"/", ["h"]⟩⟩
  world := { storage := { files := ⟨[(⟨"/", ["h"]⟩, .directory), (⟨"/", ["h", "data"]⟩, .directory),
    (⟨"/", ["h", "data", "jobs"]⟩, .directory), (⟨"/", ["h", "data", "jobs", "j.yaml"]⟩,
      .file (Text.encodeUtf8 ("job_name: j\nfetch:\n  cluster_service: c\nstore:\n  backend: mongodb\n" ++
        "  uri: mongodb://m\noutput:\n  format: sqlite\n"))),
    (⟨"/", ["h", "data", "outputs"]⟩, .directory), (⟨"/", ["h", "data", "outputs", "j.db"]⟩, .directory)]⟩ } }
  now := ⟨⟨2024, 1, 2⟩, ⟨3, 4, 5, 0⟩, some 0⟩
  uuid n := String.ofList (List.replicate n 'u')

def blockedRunner : Runner where
  layout := blockedHome.layout
  settings := {}
  provenance := .log
  pools := {}

/-- A run whose output cannot be opened leaves the client of its own store open. -/
theorem run_leaves_open :
    blockedHome.world.clients = [] ∧
      ∃ e y, (run "j" (some [])).exec (blockedRunner, blockedHome) = (.error e, y) ∧
        y.2.world.clients.map MongoClient.closed = [0] := by
  have hstart : blockedHome.world.clients = [] := by decide +kernel
  have hrun : ((run "j" (some [])).exec (blockedRunner, blockedHome)).1.isOk = false ∧
      ((run "j" (some [])).exec (blockedRunner, blockedHome)).2.2.world.clients.map MongoClient.closed = [0] := by
    decide +kernel
  rcases hend : (run "j" (some [])).exec (blockedRunner, blockedHome) with ⟨ended, y⟩
  rw [hend] at hrun
  obtain ⟨hended, hclients⟩ := hrun
  cases ended with
  | ok summary => cases hended
  | error e => exact ⟨hstart, e, y, rfl, hclients⟩

end Runner

end DocFetch
