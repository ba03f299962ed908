import DocFetch.Proofs.Pools.Closing

/-! # Which pools requests are given

A job is given the pool that its last request was given, as long as it asks for the same size, and else a pool that
nobody was given before. Runs share one pool.
-/

namespace DocFetch.Pools

variable {p p' : Pools} {name : String} {size : Option Int} {r : Except Failure Pool}

/-! ## What a request does -/

/-- Pools that nobody has used. -/
def fresh (usual : Int) : Pools := { defaultSize := usual }

/-- The size that a request asks for; nothing and zero stand for the usual one. -/
def Move.asks (usual : Int) : Move → Option Int
  | .trigger => some usual
  | .job _ size => some ((fresh usual).sizeOr size)
  | _ => none

theorem sizeOr_congr (h : p'.defaultSize = p.defaultSize) (size : Option Int) : p'.sizeOr size = p.sizeOr size := by
  unfold sizeOr
  rw [h]

/-! ## What was given -/

namespace History

/-- The pools that runs were given. -/
def shared (h : History) : List Pool := h.filterMap fun
  | (.trigger, some (.ok pool)) => some pool
  | _ => none

/-- The pools that a job was given, each with the size that it asked for. -/
def calls (name : String) (h : History) : List (Option Int × Pool) := h.filterMap fun
  | (.job other size, some (.ok pool)) => if other = name then some (size, pool) else none
  | _ => none

theorem shared_append (h h' : History) : shared (h ++ h') = shared h ++ shared h' := List.filterMap_append ..

theorem calls_append (name : String) (h h' : History) : calls name (h ++ h') = calls name h ++ calls name h' :=
  List.filterMap_append ..

theorem calls_job (name other : String) (size : Option Int) (r : Except Failure Pool) :
    calls name [(.job other size, some r)] = if other = name then (r.toOption.map (size, ·)).toList else [] := by
  cases r <;> by_cases h : other = name <;> simp [calls, h, Except.toOption]

theorem runs_eq (h : History) : h.runs = h.shared.map Pool.number := by
  rw [shared, List.map_filterMap]
  refine congrArg (List.filterMap · h) (funext fun e => ?_)
  rcases e with ⟨m, a⟩
  cases m <;> rcases a with _ | _ | _ <;> rfl

theorem mem_jobs_of_mem_calls {h : History} {call : Option Int × Pool} (hcall : call ∈ h.calls name) :
    call.2.number ∈ h.jobs := by
  obtain ⟨⟨m, a⟩, he, hsome⟩ := List.mem_filterMap.mp hcall
  refine List.mem_filterMap.mpr ⟨(m, a), he, ?_⟩
  split at hsome
  · rename_i heq
    cases heq
    split at hsome
    · cases hsome
      rfl
    · cases hsome
  · cases hsome

end History

variable {usual : Int} {history : History} {e : Move × Answer}

/-! ### Runs -/

/-- The pool for runs is the one that all runs were given, until it is taken by the call that closes. -/
structure TracksRuns (usual : Int) (history : History) (p : Pools) : Prop where
  defaultSize : p.defaultSize = usual
  shared : p.closing = false → ∀ pool, p.trigger = some pool ↔ pool ∈ history.shared
  size : ∀ pool ∈ history.shared, pool.size = usual

namespace TracksRuns

theorem leaves (h : TracksRuns usual history p) (hshared : History.shared [e] = [])
    (hsize : p'.defaultSize = p.defaultSize) (htrigger : p'.closing = false → p.closing = false ∧ p'.trigger = p.trigger) :
    TracksRuns usual (history ++ [e]) p' := by
  have hsame : History.shared (history ++ [e]) = history.shared := by
    rw [History.shared_append, hshared, List.append_nil]
  constructor
  · exact hsize.trans h.defaultSize
  · intro hopen pool
    obtain ⟨hbefore, hkept⟩ := htrigger hopen
    rw [hkept, hsame]
    exact h.shared hbefore pool
  · intro pool hpool
    rw [hsame] at hpool
    exact h.size pool hpool

theorem trigger (h : TracksRuns usual history p) (hr : RunAnswer p r p') :
    TracksRuns usual (history ++ [(.trigger, some r)]) p' := by
  cases hr with
  | refused _ => exact h.leaves rfl rfl fun hopen => ⟨hopen, rfl⟩
  | failed _ _ _ => exact h.leaves rfl rfl fun hopen => ⟨hopen, rfl⟩
  | @kept pool hopen hpool =>
    have hmem : pool ∈ history.shared := (h.shared hopen pool).mp hpool
    have hsame (other : Pool) :
        other ∈ History.shared (history ++ [(.trigger, some (.ok pool))]) ↔ other ∈ history.shared := by
      rw [History.shared_append, List.mem_append]
      exact ⟨fun hother => hother.elim id fun heq => List.mem_singleton.mp heq ▸ hmem, .inl⟩
    constructor
    · exact h.defaultSize
    · intro _ other
      rw [hsame]
      exact h.shared hopen other
    · intro other hother
      exact h.size other ((hsame other).mp hother)
  | created hopen hnone hpos =>
    have hempty : history.shared = [] := by
      apply List.eq_nil_iff_forall_not_mem.mpr
      intro pool hpool
      have hsome := (h.shared hopen pool).mpr hpool
      rw [hnone] at hsome
      cases hsome
    constructor
    · exact h.defaultSize
    · intro _ pool
      rw [History.shared_append, hempty]
      simp [History.shared, eq_comm]
    · intro pool hpool
      rw [History.shared_append, hempty] at hpool
      rw [List.mem_singleton.mp hpool]
      exact h.defaultSize

end TracksRuns

/-! ### Jobs -/

/-- The pool of each job is the one that its last request was given, until all are taken by the call that closes. -/
structure TracksJobs (history : History) (p : Pools) : Prop where
  current : p.closed = false → ∀ name, Assoc.get? name p.jobs = (history.calls name).getLast?.map Prod.snd
  size : ∀ name, ∀ call ∈ history.calls name, call.2.size = p.sizeOr call.1
  apart : ∀ name, ∀ call ∈ history.calls name, ∀ other, ∀ call' ∈ history.calls other,
    call'.2.number = call.2.number → other = name

namespace TracksJobs

theorem exists_call (h : TracksJobs history p) (hopen : p.closed = false) {pool : Pool}
    (hpool : Assoc.get? name p.jobs = some pool) : ∃ size, (history.calls name).getLast? = some (size, pool) := by
  rw [h.current hopen, Option.map_eq_some_iff] at hpool
  obtain ⟨⟨size, last⟩, hlast, rfl⟩ := hpool
  exact ⟨size, hlast⟩

theorem leaves (h : TracksJobs history p) (hcalls : ∀ name, History.calls name [e] = [])
    (hsize : p'.defaultSize = p.defaultSize) (hjobs : p'.closed = false → p.closed = false ∧ p'.jobs = p.jobs) :
    TracksJobs (history ++ [e]) p' := by
  have hsame (name : String) : History.calls name (history ++ [e]) = history.calls name := by
    rw [History.calls_append, hcalls, List.append_nil]
  constructor
  · intro hopen name
    obtain ⟨hbefore, hkept⟩ := hjobs hopen
    rw [hkept, hsame]
    exact h.current hbefore name
  · intro name call hcall
    rw [hsame] at hcall
    rw [sizeOr_congr hsize]
    exact h.size name call hcall
  · intro name call hcall other call' hcall' heq
    rw [hsame] at hcall hcall'
    exact h.apart name call hcall other call' hcall' heq

theorem given (h : TracksJobs history p) {pool : Pool} (hpool : pool.size = p.sizeOr size)
    (hapart : ∀ other, ∀ call ∈ history.calls other, call.2.number = pool.number → other = name)
    (hsize : p'.defaultSize = p.defaultSize) (hopen : p.closed = false)
    (hjobs : ∀ other, Assoc.get? other p'.jobs = if name = other then some pool else Assoc.get? other p.jobs) :
    TracksJobs (history ++ [(.job name size, some (.ok pool))]) p' := by
  have hcalls (other : String) : History.calls other (history ++ [(.job name size, some (.ok pool))]) =
      history.calls other ++ if name = other then [(size, pool)] else [] := by
    rw [History.calls_append, History.calls_job]
    rfl
  have hmem (other : String) (call : Option Int × Pool) :
      call ∈ History.calls other (history ++ [(.job name size, some (.ok pool))]) ↔
        call ∈ history.calls other ∨ name = other ∧ call = (size, pool) := by
    rw [hcalls, List.mem_append]
    by_cases hname : name = other <;> simp [hname]
  constructor
  · intro _ other
    rw [hjobs, hcalls]
    by_cases hname : name = other
    · simp [hname]
    · rw [if_neg hname, if_neg hname, List.append_nil]
      exact h.current hopen other
  · intro other call hcall
    rw [sizeOr_congr hsize]
    rcases (hmem other call).mp hcall with hold | ⟨-, rfl⟩
    · exact h.size other call hold
    · exact hpool
  · intro first call hcall other call' hcall' heq
    rcases (hmem first call).mp hcall with hold | ⟨rfl, rfl⟩
    · rcases (hmem other call').mp hcall' with hold' | ⟨rfl, rfl⟩
      · exact h.apart first call hold other call' hold' heq
      · exact (hapart first call hold heq.symm).symm
    · rcases (hmem other call').mp hcall' with hold' | ⟨rfl, -⟩
      · exact hapart other call' hold' heq
      · rfl

theorem job (h : TracksJobs history p) (hcreated : ∀ n ∈ history.jobs, n < p.created)
    (hr : JobAnswer p name size r p') : TracksJobs (history ++ [(.job name size, some r)]) p' := by
  have hfailed (f : Failure) (other : String) : History.calls other [(.job name size, some (.error f))] = [] := rfl
  cases hr with
  | refused _ => exact h.leaves (hfailed _) rfl fun hopen => ⟨hopen, rfl⟩
  | failed _ _ _ => exact h.leaves (hfailed _) rfl fun hopen => ⟨hopen, rfl⟩
  | @kept pool hopen hpool hsize =>
    obtain ⟨asked, hlast⟩ := h.exists_call hopen hpool
    have hmem : (asked, pool) ∈ history.calls name := List.mem_of_getLast? hlast
    refine h.given hsize (fun other call hcall heq => ?_) rfl hopen fun other => ?_
    · exact h.apart name (asked, pool) hmem other call hcall heq
    · by_cases hname : name = other
      · rw [if_pos hname, ← hname, hpool]
      · rw [if_neg hname]
  | created hopen hother hpos =>
    refine h.given rfl (fun other call hcall heq => ?_) rfl hopen fun other => ?_
    · have hlt := hcreated call.2.number (History.mem_jobs_of_mem_calls hcall)
      exact absurd heq (Nat.ne_of_lt hlt)
    · by_cases hname : name = other
      · rw [if_pos hname, ← hname, Assoc.get?_put_self]
      · rw [if_neg hname, Assoc.get?_put_of_ne hname]

end TracksJobs

/-! ### Runs of moves -/

namespace System

variable {s s' : System}

/-- What the pools tell of all requests so far. -/
structure Tracks (usual : Int) (history : History) (s : System) : Prop where
  sound : Sound history.runs history.jobs s
  runs : TracksRuns usual history s.pools
  jobs : TracksJobs history s.pools

namespace Tracks

theorem start (usual : Int) : Tracks usual [] { pools := fresh usual } where
  sound := Sound.start usual
  runs := ⟨rfl, fun _ _ => ⟨nofun, fun hpool => absurd hpool List.not_mem_nil⟩,
    fun _ hpool => absurd hpool List.not_mem_nil⟩
  jobs := ⟨fun _ _ => rfl, fun _ _ hcall => absurd hcall List.not_mem_nil,
    fun _ _ hcall => absurd hcall List.not_mem_nil⟩

theorem enter (h : Tracks usual history s) (wait : Bool) :
    TracksRuns usual (history ++ [(.close wait, none)]) (s.enter wait).pools ∧
      TracksJobs (history ++ [(.close wait, none)]) (s.enter wait).pools := by
  have hcalls (name : String) : History.calls name [(.close wait, none)] = [] := rfl
  unfold System.enter
  split
  · exact ⟨h.runs.leaves rfl rfl fun hopen => ⟨hopen, rfl⟩, h.jobs.leaves hcalls rfl fun hopen => ⟨hopen, rfl⟩⟩
  · exact ⟨h.runs.leaves rfl rfl (fun hopen => by cases hopen), h.jobs.leaves hcalls rfl fun hopen => ⟨hopen, rfl⟩⟩

theorem advance (h : Tracks usual history s) {c c' : Closer} (i : Nat) (hnext : c.next s.work s.pools = some (c', p')) :
    TracksRuns usual (history ++ [(.advance i, none)]) p' ∧ TracksJobs (history ++ [(.advance i, none)]) p' := by
  have hcalls (name : String) : History.calls name [(.advance i, none)] = [] := rfl
  have hsame (hsize : p'.defaultSize = s.pools.defaultSize)
      (hruns : p'.closing = s.pools.closing ∧ p'.trigger = s.pools.trigger)
      (hjobs : p'.closed = false → s.pools.closed = false ∧ p'.jobs = s.pools.jobs) :
      TracksRuns usual (history ++ [(.advance i, none)]) p' ∧ TracksJobs (history ++ [(.advance i, none)]) p' :=
    ⟨h.runs.leaves rfl hsize fun hopen => ⟨hruns.1 ▸ hopen, hruns.2⟩, h.jobs.leaves hcalls hsize hjobs⟩
  cases Closer.next_cases hnext with
  | awaited _ _ => exact hsame rfl ⟨rfl, rfl⟩ fun hopen => ⟨hopen, rfl⟩
  | shut _ _ => exact hsame rfl ⟨rfl, rfl⟩ fun hopen => ⟨hopen, rfl⟩
  | sweep _ _ _ => exact hsame rfl ⟨rfl, rfl⟩ (fun hopen => by cases hopen)
  | back _ _ _ => exact hsame rfl ⟨rfl, rfl⟩ fun hopen => ⟨hopen, rfl⟩

theorem step (h : Tracks usual history s) {m : Move} {a : Answer} (hstep : s.step m = some (a, s')) :
    Tracks usual (history ++ [(m, a)]) s' := by
  have hsound := h.sound.step hstep
  rw [← History.runs_append, ← History.jobs_append] at hsound
  suffices hpools : TracksRuns usual (history ++ [(m, a)]) s'.pools ∧ TracksJobs (history ++ [(m, a)]) s'.pools from
    ⟨hsound, hpools.1, hpools.2⟩
  cases step_cases hstep with
  | trigger hr =>
    obtain ⟨hsize, hclosed, hjobs, -⟩ := hr.jobs
    exact ⟨h.runs.trigger hr, h.jobs.leaves (fun _ => rfl) hsize fun hopen => ⟨hclosed ▸ hopen, hjobs⟩⟩
  | job hr =>
    obtain ⟨hsize, hclosing, htrigger⟩ := hr.runs
    have hcreated : ∀ n ∈ history.jobs, n < s.pools.created :=
      fun n hn => h.sound.created n (List.mem_append_right _ hn)
    exact ⟨h.runs.leaves rfl hsize fun hopen => ⟨hclosing ▸ hopen, htrigger⟩, h.jobs.job hcreated hr⟩
  | submit hn =>
    exact ⟨h.runs.leaves rfl rfl fun hopen => ⟨hopen, rfl⟩,
      h.jobs.leaves (fun _ => rfl) rfl fun hopen => ⟨hopen, rfl⟩⟩
  | finish n =>
    exact ⟨h.runs.leaves rfl rfl fun hopen => ⟨hopen, rfl⟩,
      h.jobs.leaves (fun _ => rfl) rfl fun hopen => ⟨hopen, rfl⟩⟩
  | close wait => exact h.enter wait
  | @advance i c c' p' hi hnext => exact h.advance i hnext

theorem run (h : Tracks usual history s) {moves : List Move} {tail : History} (hrun : s.run moves = some (tail, s')) :
    Tracks usual (history ++ tail) s' :=
  run_induction (P := Tracks usual) (fun h => h.step) h hrun

end Tracks

/-! ## Requests before closing -/

theorem map_fst_of_run {moves : List Move} (hrun : s.run moves = some (history, s')) :
    history.map Prod.fst = moves := by
  induction moves generalizing s history with
  | nil =>
    cases hrun
    rfl
  | cons m rest ih =>
    obtain ⟨a, t, tail, -, htail, rfl⟩ := run_cons hrun
    rw [List.map_cons, ih htail]

theorem exists_step_of_run {moves : List Move} {before after : History} {m : Move} {a : Answer}
    (hrun : s.run moves = some (before ++ (m, a) :: after, s')) :
    ∃ t u, s.run (before.map Prod.fst) = some (before, t) ∧ t.step m = some (a, u) := by
  induction moves generalizing s before with
  | nil =>
    have hempty := congrArg (fun r => r.map fun r => r.1.length) hrun
    simp [System.run] at hempty
  | cons first rest ih =>
    obtain ⟨b, t, tail, hstep, htail, heq⟩ := run_cons hrun
    cases before with
    | nil =>
      cases heq
      exact ⟨s, t, rfl, hstep⟩
    | cons e before =>
      cases heq
      obtain ⟨u, v, hbefore, hlast⟩ := ih htail
      refine ⟨u, v, ?_, hlast⟩
      rw [List.map_cons, System.run, hstep, Option.bind_eq_bind, Option.bind_some]
      dsimp only
      rw [hbefore]
      rfl

theorem closers_of_step {m : Move} {a : Answer} (hm : ∀ wait, .close wait ≠ m) (hnone : s.closers = [])
    (hstep : s.step m = some (a, s')) : s'.closers = [] := by
  cases step_cases hstep with
  | trigger hr | job hr | submit hn | finish n => exact hnone
  | close wait => exact absurd rfl (hm wait)
  | advance hi hnext =>
    rw [hnone] at hi
    cases hi

theorem closers_of_run {moves : List Move} (hopen : ∀ wait, .close wait ∉ moves) (hnone : s.closers = [])
    (hrun : s.run moves = some (history, s')) : s'.closers = [] := by
  induction moves generalizing s history with
  | nil =>
    cases hrun
    exact hnone
  | cons m rest ih =>
    obtain ⟨a, t, tail, hstep, htail, rfl⟩ := run_cons hrun
    have hfirst (wait : Bool) : .close wait ≠ m := fun heq => hopen wait (heq ▸ List.mem_cons_self)
    exact ih (fun wait hmem => hopen wait (List.mem_cons_of_mem m hmem)) (closers_of_step hfirst hnone hstep) htail

theorem Tracks.open_of_closers (h : Tracks usual history s) (hnone : s.closers = []) :
    s.pools.closing = false ∧ s.pools.closed = false ∧
      ∀ n ∈ history.runs ++ history.jobs, s.pools.accepts n = true := by
  rcases h.sound.closers with ⟨-, hclosing, hclosed, hshut⟩ | ⟨c, rest, hclosers, -⟩
  · refine ⟨hclosing, hclosed, fun n hn => ?_⟩
    simp [accepts, hshut, h.sound.created n hn]
  · rw [hnone] at hclosers
    cases hclosers

/-- The answer to a job by what its last request was answered. -/
theorem Tracks.answer (h : Tracks usual history s) (hnone : s.closers = [])
    (hpos : 0 < (fresh usual).sizeOr size) (hr : JobAnswer s.pools name size r p') :
    ∃ pool, r = .ok pool ∧ pool.size = (fresh usual).sizeOr size ∧
      (∀ last, (history.calls name).getLast? = some last →
        (pool.number = last.2.number ↔ (fresh usual).sizeOr last.1 = (fresh usual).sizeOr size)) ∧
      (pool.number ∈ history.runs ++ history.jobs →
        ∃ last, (history.calls name).getLast? = some last ∧ pool.number = last.2.number) := by
  obtain ⟨-, hclosed, -⟩ := h.open_of_closers hnone
  have hsizes (size : Option Int) : s.pools.sizeOr size = (fresh usual).sizeOr size :=
    sizeOr_congr h.runs.defaultSize size
  have hcurrent := h.jobs.current hclosed name
  have hlastSize (last : Option Int × Pool) (hlast : (history.calls name).getLast? = some last) :
      last.2.size = (fresh usual).sizeOr last.1 := by
    rw [← hsizes]
    exact h.jobs.size name last (List.mem_of_getLast? hlast)
  cases hr with
  | refused hrefused =>
    rw [hclosed] at hrefused
    cases hrefused
  | failed _ _ hbad =>
    rw [hsizes] at hbad
    omega
  | @kept pool _ hpool hsize =>
    rw [hsizes] at hsize
    obtain ⟨asked, hlast⟩ := h.jobs.exists_call hclosed hpool
    refine ⟨pool, rfl, hsize, fun last hlast' => ?_, fun _ => ⟨_, hlast, rfl⟩⟩
    rw [hlast] at hlast'
    cases hlast'
    exact iff_of_true rfl ((hlastSize _ hlast).symm.trans hsize)
  | created _ hother _ =>
    have hnew (n : Nat) (hn : n ∈ history.runs ++ history.jobs) : n ≠ s.pools.created :=
      Nat.ne_of_lt (h.sound.created n hn)
    refine ⟨_, rfl, hsizes size, fun last hlast => ?_, fun hmem => absurd rfl (hnew _ hmem)⟩
    have hmem : last.2.number ∈ history.jobs := History.mem_jobs_of_mem_calls (List.mem_of_getLast? hlast)
    refine iff_of_false (Ne.symm (hnew _ (List.mem_append_right _ hmem))) fun heq => ?_
    apply hother last.2
    · rw [hcurrent, hlast]
      rfl
    · rw [hsizes, hlastSize last hlast, heq]

/-- Before a call closes the pools, with sizes that pools can have: a job is given a pool of the size that it asks
for, the one of its last request just if that asked for the same size, and else one that nobody was given before.
All runs are given one pool. No two jobs, and no job and a run, are given the same pool, and every pool that was given
takes work. -/
theorem given_of_run {usual : Int} {moves : List Move} {history : History} {s : System}
    (hrun : run { pools := fresh usual } moves = some (history, s)) (hopen : ∀ wait, .close wait ∉ moves)
    (hsizes : ∀ m ∈ moves, ∀ n ∈ m.asks usual, 0 < n) :
    (∀ (before : History) name size answer after, history = before ++ (.job name size, answer) :: after →
      ∃ pool, answer = some (.ok pool) ∧ pool.size = (fresh usual).sizeOr size ∧
        (∀ last, (before.calls name).getLast? = some last →
          (pool.number = last.2.number ↔ (fresh usual).sizeOr last.1 = (fresh usual).sizeOr size)) ∧
        (pool.number ∈ before.runs ++ before.jobs →
          ∃ last, (before.calls name).getLast? = some last ∧ pool.number = last.2.number)) ∧
    (∀ answer, (.trigger, answer) ∈ history → ∃ pool, answer = some (.ok pool) ∧ pool.size = usual ∧
      ∀ n ∈ history.runs, n = pool.number) ∧
    (∀ name, ∀ call ∈ history.calls name, ∀ name', ∀ call' ∈ history.calls name',
      call'.2.number = call.2.number → name' = name) ∧
    (∀ n ∈ history.runs, n ∉ history.jobs) ∧
    ∀ n ∈ history.runs ++ history.jobs, s.pools.accepts n = true := by
  have hend : Tracks usual history s := (Tracks.start usual).run hrun
  have hmoves := map_fst_of_run hrun
  obtain ⟨hclosing, -, haccepts⟩ := hend.open_of_closers (closers_of_run hopen rfl hrun)
  -- what is asked in the history is answered in an open state
  have hreached (before after : History) (m : Move) (answer : Answer) (heq : history = before ++ (m, answer) :: after) :
      ∃ t u, t.closers = [] ∧ Tracks usual before t ∧ t.step m = some (answer, u) ∧ m ∈ moves := by
    rw [heq] at hrun hmoves
    obtain ⟨t, u, hbefore, hstep⟩ := exists_step_of_run hrun
    rw [List.map_append] at hmoves
    have hpast (wait : Bool) : .close wait ∉ before.map Prod.fst :=
      fun hmem => hopen wait (hmoves ▸ List.mem_append_left _ hmem)
    refine ⟨t, u, closers_of_run hpast rfl hbefore, (Tracks.start usual).run hbefore, hstep, ?_⟩
    rw [← hmoves]
    simp
  refine ⟨?jobs, ?runs, hend.jobs.apart, hend.sound.apart, haccepts⟩
  case jobs =>
    intro before name size answer after heq
    obtain ⟨t, u, hnone, ht, hstep, hm⟩ := hreached _ _ _ _ heq
    cases hstep
    obtain ⟨pool, hpool, hrest⟩ := ht.answer hnone (hsizes _ hm _ rfl) (jobAnswer t.pools name size)
    exact ⟨pool, congrArg some hpool, hrest⟩
  case runs =>
    intro answer hmem
    obtain ⟨before, after, heq⟩ := List.append_of_mem hmem
    obtain ⟨t, u, hnone, ht, hstep, hm⟩ := hreached _ _ _ _ heq
    obtain ⟨hbefore, -⟩ := ht.open_of_closers hnone
    cases hstep
    have hpos : 0 < t.pools.defaultSize := by
      rw [ht.runs.defaultSize]
      exact hsizes _ hm usual rfl
    obtain ⟨pool, hpool⟩ := (runAnswer t.pools).exists_ok hbefore hpos
    rw [hpool] at hmem
    have hshared : pool ∈ history.shared := List.mem_filterMap.mpr ⟨_, hmem, rfl⟩
    refine ⟨pool, congrArg some hpool, hend.runs.size pool hshared, fun n hn => ?_⟩
    -- every run was given the pool that is there in the end
    have htrigger := (hend.runs.shared hclosing pool).mpr hshared
    rw [History.runs_eq] at hn
    obtain ⟨other, hother, rfl⟩ := List.mem_map.mp hn
    have hsame := (hend.runs.shared hclosing other).mpr hother
    rw [htrigger] at hsame
    cases hsame
    rfl

/-- A job that asks for one worker, for two and for one again, and one that asks for the usual two. -/
theorem given_of_run_resized :
    let moves : List Move := [.trigger, .job "a" (some 1), .job "a" (some 1), .job "b" none, .job "a" (some 2),
      .submit 1, .job "b" (some 2), .job "a" (some 1), .trigger]
    ∃ history s, run { pools := fresh 2 } moves = some (history, s) ∧ (∀ wait, .close wait ∉ moves) ∧
      (∀ m ∈ moves, ∀ n ∈ m.asks 2, 0 < n) ∧ history.runs = [0, 0] ∧ history.jobs = [1, 1, 2, 3, 2, 4] ∧
      (∀ n ∈ history.runs, n ∉ history.jobs) ∧ ∀ n ∈ history.runs ++ history.jobs, s.pools.accepts n = true := by
  intro moves
  have hopen : ∀ wait, .close wait ∉ moves := by
    intro wait hmem
    simp [moves] at hmem
  have hsizes : ∀ m ∈ moves, ∀ n ∈ m.asks 2, 0 < n := by
    simp [moves, Move.asks, sizeOr, fresh]
  have hnumbers : (run { pools := fresh 2 } moves).map (fun r => (r.1.runs, r.1.jobs)) =
      some ([0, 0], [1, 1, 2, 3, 2, 4]) := by decide +kernel
  obtain ⟨⟨history, s⟩, hrun, hseen⟩ := Option.map_eq_some_iff.mp hnumbers
  rw [Prod.mk.injEq] at hseen
  obtain ⟨-, -, -, hapart, haccepts⟩ := given_of_run hrun hopen hsizes
  exact ⟨history, s, hrun, hopen, hsizes, hseen.1, hseen.2, hapart, haccepts⟩

end System

end DocFetch.Pools
