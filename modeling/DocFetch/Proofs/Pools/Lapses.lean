import DocFetch.Proofs.Pools.Requests

/-! # Requests that fail

A request that fails changes nothing, but for a job that has a pool and asks for a size that no pool can have: its pool
is set aside and stays the pool of the job. Closing shuts each pool down once, and once more for each time that it was
set aside so.
-/

namespace DocFetch.Pools

namespace History

/-- The pool that a job has when its request fails for the size. -/
def lapse (before : History) : Move × Answer → List Nat
  | (.job name _, some (.error (.platform .badValue _))) =>
    ((before.calls name).getLast?.map fun call => call.2.number).toList
  | _ => []

def lapsesFrom (before : History) : History → List Nat
  | [] => []
  | e :: rest => before.lapse e ++ lapsesFrom (before ++ [e]) rest

/-- The pools that were set aside by requests that failed. -/
def lapses (h : History) : List Nat := lapsesFrom [] h

theorem lapses_concat (h : History) (e : Move × Answer) : lapses (h ++ [e]) = lapses h ++ h.lapse e := by
  have hfrom (before h : History) : lapsesFrom before (h ++ [e]) = lapsesFrom before h ++ (before ++ h).lapse e := by
    induction h generalizing before with
    | nil => simp [lapsesFrom]
    | cons first rest ih => simp [lapsesFrom, ih]
  exact hfrom [] h

end History

namespace System

variable {usual : Int} {s s' : System} {history : History} {m : Move} {a : Answer} {name : String}
  {size : Option Int} {r : Except Failure Pool} {p' : Pools}

/-- How many times a pool is found: among those that are shut down, that are held, and that are to be shut down next. -/
def tally (s : System) (n : Nat) : Nat :=
  s.pools.shut.count n + (s.pools.heldPools.map Pool.number).count n + (s.left.map Pool.number).count n

/-- How many of the first pools have a number. -/
def born (created n : Nat) : Nat := if n < created then 1 else 0

theorem born_succ (created n : Nat) : born (created + 1) n = born created n + if created = n then 1 else 0 := by
  unfold born
  split <;> split <;> split <;> omega

/-- The tally grows by the pool that is created and by one that is set aside while it is in use. -/
def Grown (s s' : System) (lapsed : List Nat) : Prop :=
  ∀ n, s'.tally n + born s.pools.created n = s.tally n + born s'.pools.created n + lapsed.count n

theorem grown_trigger (s : System) (hr : RunAnswer s.pools r p') : Grown s { s with pools := p' } [] := by
  intro n
  cases hr with
  | refused _ => rfl
  | kept _ _ => rfl
  | failed _ _ _ => rfl
  | created _ hnone _ =>
    simp only [tally, born_succ, heldPools, runPools, hnone, left, jobPools, next, Option.toList_none,
      Option.toList_some, List.nil_append, List.singleton_append, List.map_cons, List.count_cons, List.count_nil, beq_iff_eq]
    omega

theorem lapse_failed (h : Tracks usual history s) (hopen : s.pools.closed = false) (name : String)
    (size : Option Int) : history.lapse (.job name size, some (.error (.fault .badValue))) =
      (Assoc.get? name s.pools.jobs).toList.map Pool.number := by
  rw [h.jobs.current hopen name]
  cases hlast : (history.calls name).getLast? <;> simp [History.lapse, Failure.fault, hlast]

theorem grown_job (h : Tracks usual history s) (hr : JobAnswer s.pools name size r p') :
    Grown s { s with pools := p' } (history.lapse (.job name size, some r)) := by
  intro n
  cases hr with
  | refused _ => rfl
  | kept _ _ _ => rfl
  | failed hopen _ _ =>
    rw [lapse_failed h hopen]
    simp only [tally, heldPools, runPools, setAside, left, jobPools, List.map_append, List.count_append]
    omega
  | created _ _ _ =>
    -- the pool that the job had goes from those in use to those set aside, so it is found as often as before
    have hperm := (Assoc.perm_values_put name (s.pools.next (s.pools.sizeOr size) ("keyfetch-" ++ name))
      s.pools.jobs).map Pool.number
    have hcount := hperm.count_eq n
    simp only [tally, born_succ, heldPools, runPools, setAside, left, jobPools, next, List.map_append,
      List.count_append, List.map_cons, List.count_cons, beq_iff_eq] at hcount ⊢
    change _ = _ + List.count n []
    rw [List.count_nil]
    omega

theorem grown_enter (h : Tracks usual history s) (wait : Bool) : Grown s (s.enter wait) [] := by
  intro n
  unfold enter
  rcases h.sound.closers with ⟨hnone, hclosing, -⟩ | ⟨c, rest, hclosers, hc, -⟩
  · rw [if_neg (by rw [hclosing]; exact Bool.false_ne_true), hnone]
    simp only [tally, heldPools, runPools, refuseRuns, left, jobPools, hnone, List.nil_append, List.head?_cons,
      List.head?_nil, Option.map_some, Option.map_none, Option.getD_some, Option.getD_none, Option.toList_none,
      List.map_append, List.map_nil, List.count_append, List.count_nil]
    omega
  · rw [if_pos hc.refuses.1]
    simp only [tally, left, hclosers, List.cons_append, List.head?_cons, List.count_nil]
    omega

theorem grown_advance (h : Tracks usual history s) {i : Nat} {c c' : Closer} (hi : s.closers[i]? = some c)
    (hnext : c.next s.work s.pools = some (c', p')) :
    Grown s { s with pools := p', closers := s.closers.set i c' } [] := by
  intro n
  obtain ⟨rest, hclosers, rfl⟩ := h.sound.eq_zero_of_next hi hnext
  have hleft : s.left = c.todo := by
    rw [left, hclosers]
    rfl
  have hleft' : left { s with pools := p', closers := s.closers.set 0 c' } = c'.todo := by
    rw [left, hclosers]
    rfl
  rw [tally, tally, hleft, hleft']
  cases Closer.next_cases hnext with
  | awaited _ _ => rfl
  | shut _ htodo =>
    simp only [Pools.shutDown, heldPools, runPools, jobPools, htodo, List.map_cons, List.map_nil, List.count_append,
      List.count_cons, List.count_nil, beq_iff_eq]
    omega
  | sweep _ htodo _ =>
    simp only [refuseJobs, heldPools, runPools, jobPools, htodo, List.map_append, List.map_nil, List.count_append,
      List.count_nil]
    omega
  | back _ _ _ => rfl

theorem grown_step (h : Tracks usual history s) (hstep : s.step m = some (a, s')) :
    Grown s s' (history.lapse (m, a)) := by
  cases step_cases hstep with
  | trigger hr => exact grown_trigger s hr
  | job hr => exact grown_job h hr
  | submit hn => exact fun _ => rfl
  | finish n => exact fun _ => rfl
  | close wait => exact grown_enter h wait
  | advance hi hnext => exact grown_advance h hi hnext

/-! ## What stays set aside -/

/-- Until the pools of jobs are taken by the call that closes, those that a request that failed set aside stay so. -/
def Keeps (history : History) (s : System) : Prop :=
  s.pools.closed = false → ∀ n ∈ history.lapses, n ∈ s.pools.retired.map Pool.number

theorem Keeps.leaves {e : Move × Answer} (h : Keeps history s) (hlapse : history.lapse e = [])
    (hpools : s'.pools.closed = false → s.pools.closed = false ∧ s'.pools.retired = s.pools.retired) :
    Keeps (history ++ [e]) s' := by
  intro hopen n hn
  obtain ⟨hbefore, hkept⟩ := hpools hopen
  rw [History.lapses_concat, hlapse, List.append_nil] at hn
  rw [hkept]
  exact h hbefore n hn

theorem keeps_job (h : Tracks usual history s) (hkeeps : Keeps history s) (hr : JobAnswer s.pools name size r p') :
    Keeps (history ++ [(.job name size, some r)]) { s with pools := p' } := by
  cases hr with
  | refused _ => exact hkeeps.leaves rfl fun hopen => ⟨hopen, rfl⟩
  | kept _ _ _ => exact hkeeps.leaves rfl fun hopen => ⟨hopen, rfl⟩
  | created hopen _ _ =>
    intro _ n hn
    rw [History.lapses_concat] at hn
    rw [setAside, List.map_append, List.mem_append]
    rcases List.mem_append.mp hn with hold | hnew
    · exact .inl (hkeeps hopen n hold)
    · cases hnew
  | failed hopen _ _ =>
    intro _ n hn
    rw [History.lapses_concat, lapse_failed h hopen] at hn
    rw [setAside, List.map_append, List.mem_append]
    exact (List.mem_append.mp hn).imp_left (hkeeps hopen n)

theorem keeps_step (h : Tracks usual history s) (hkeeps : Keeps history s) (hstep : s.step m = some (a, s')) :
    Keeps (history ++ [(m, a)]) s' := by
  cases step_cases hstep with
  | trigger hr =>
    obtain ⟨-, hclosed, -, hretired⟩ := hr.jobs
    exact hkeeps.leaves rfl fun hopen => ⟨hclosed ▸ hopen, hretired⟩
  | job hr => exact keeps_job h hkeeps hr
  | submit hn => exact hkeeps.leaves rfl fun hopen => ⟨hopen, rfl⟩
  | finish n => exact hkeeps.leaves rfl fun hopen => ⟨hopen, rfl⟩
  | close wait =>
    refine hkeeps.leaves rfl fun hopen => ?_
    rw [enter] at hopen ⊢
    split at hopen <;> split <;> exact ⟨hopen, rfl⟩
  | advance hi hnext =>
    refine hkeeps.leaves rfl fun hopen => ?_
    change _ = false at hopen
    cases Closer.next_cases hnext with
    | awaited _ _ => exact ⟨hopen, rfl⟩
    | shut _ _ => exact ⟨hopen, rfl⟩
    | sweep _ _ _ => cases hopen
    | back _ _ _ => exact ⟨hopen, rfl⟩

/-! ## Runs -/

/-- Every pool that was created is found once, and once more for each request that failed and set it aside. -/
structure Counts (usual : Int) (history : History) (s : System) : Prop where
  tracks : Tracks usual history s
  tally : ∀ n, s.tally n = born s.pools.created n + history.lapses.count n
  keeps : Keeps history s

namespace Counts

theorem start (usual : Int) : Counts usual [] { pools := fresh usual } where
  tracks := .start usual
  tally _ := rfl
  keeps _ _ hn := absurd hn List.not_mem_nil

theorem step (h : Counts usual history s) (hstep : s.step m = some (a, s')) :
    Counts usual (history ++ [(m, a)]) s' where
  tracks := h.tracks.step hstep
  tally n := by
    have hbefore := h.tally n
    have hgrown := grown_step h.tracks hstep n
    rw [History.lapses_concat, List.count_append]
    omega
  keeps := keeps_step h.tracks h.keeps hstep

theorem run (h : Counts usual history s) {moves : List Move} {tail : History} (hrun : s.run moves = some (tail, s')) :
    Counts usual (history ++ tail) s' :=
  run_induction (P := Counts usual) (fun h => h.step) h hrun

/-- The pool of a job is one that was set aside just where a request that failed did so. -/
theorem mem_retired_iff (h : Counts usual history s) {pool : Pool} (hpool : Assoc.get? name s.pools.jobs = some pool) :
    pool.number ∈ s.pools.retired.map Pool.number ↔ pool.number ∈ history.lapses := by
  have hjob : pool ∈ s.pools.jobs.map Prod.snd := by
    obtain ⟨e, he, rfl⟩ := Assoc.exists_mem_of_get? hpool
    exact List.mem_map_of_mem he
  constructor
  · intro hretired
    have hcurrent : 0 < ((s.pools.jobs.map Prod.snd).map Pool.number).count pool.number :=
      List.count_pos_iff.mpr (List.mem_map_of_mem hjob)
    have hagain : 0 < (s.pools.retired.map Pool.number).count pool.number := List.count_pos_iff.mpr hretired
    have htally := h.tally pool.number
    have hborn : born s.pools.created pool.number ≤ 1 := by
      unfold born
      split <;> omega
    -- it is found twice and was created once
    simp only [System.tally, heldPools, jobPools, List.map_append, List.count_append] at htally
    exact List.count_pos_iff.mp (by omega)
  · refine h.keeps ?_ pool.number
    rcases h.tracks.sound.closers with ⟨-, -, hclosed, -⟩ | ⟨c, -, -, hc, -⟩
    · exact hclosed
    · by_cases hstage : c.stage = .draining
      · exact (hc.draining hstage).1
      · obtain ⟨-, hempty, -⟩ := hc.swept hstage
        exact absurd (List.mem_append_left _ hjob) (hempty ▸ List.not_mem_nil)

theorem count_shut (h : Counts usual history s) {c : Closer} (hc : s.closers.head? = some c)
    (hstage : c.stage = .returned) {n : Nat} (hn : n < s.pools.created) :
    s.pools.shut.count n = 1 + history.lapses.count n := by
  obtain ⟨rest, hclosers⟩ := List.head?_eq_some_iff.mp hc
  obtain ⟨hclosing, -⟩ := h.tracks.sound.first hclosers
  have hheld : s.pools.heldPools = [] := by
    rw [heldPools, hclosing.refuses.2, (hclosing.swept (by rw [hstage]; decide)).2.1, List.nil_append]
  have hleft : s.left = [] := by
    rw [left, hc, Option.map_some, Option.getD_some, hclosing.returned hstage]
  have htally := h.tally n
  rwa [System.tally, hheld, hleft, born, if_pos hn] at htally

end Counts

/-- A request for runs that fails changes nothing, nor does one by a job, but for a job that has a pool and asks for a
size that no pool can have: its pool is set aside and stays its pool. After any moves the pool of a job is among those
that were set aside just where that happened to it, and closing shuts each pool down once, and once more for each time
that it happened. -/
theorem lapses_of_run {usual : Int} {moves : List Move} {history : History} {s : System}
    (hrun : run { pools := fresh usual } moves = some (history, s)) :
    (∀ f p', s.pools.triggerPool = (.error f, p') → p' = s.pools) ∧
    (∀ name size f p', s.pools.jobPool name size = (.error f, p') → p' = s.pools ∨
      ∃ pool, Assoc.get? name s.pools.jobs = some pool ∧ (fresh usual).sizeOr size ≤ 0 ∧ f = .fault .badValue ∧
        p' = { s.pools with retired := s.pools.retired ++ [pool] }) ∧
    (∀ name pool, Assoc.get? name s.pools.jobs = some pool →
      (pool.number ∈ s.pools.retired.map Pool.number ↔ pool.number ∈ history.lapses)) ∧
    ∀ c, s.closers.head? = some c → c.stage = .returned →
      ∀ n < s.pools.created, s.pools.shut.count n = 1 + history.lapses.count n := by
  have h : Counts usual history s := (Counts.start usual).run hrun
  refine ⟨fun f p' hfailed => ?_, fun name size f p' hfailed => ?_, fun name pool => h.mem_retired_iff,
    fun c hc hstage n => h.count_shut hc hstage⟩
  · have hr := runAnswer s.pools
    rw [hfailed] at hr
    cases hr <;> rfl
  · have hr := jobAnswer s.pools name size
    rw [hfailed] at hr
    cases hr with
    | refused _ => exact .inl rfl
    | failed _ _ hbad =>
      rw [sizeOr_congr (p := fresh usual) h.tracks.runs.defaultSize] at hbad
      cases hpool : Assoc.get? name s.pools.jobs with
      | none => exact .inl (by rw [Option.toList_none, List.append_nil])
      | some pool => exact .inr ⟨pool, rfl, hbad, rfl, rfl⟩

/-- Two jobs ask for sizes that no pool can have, one before it asks for another size, one before closing. -/
theorem lapses_of_run_twice :
    let start : System := { pools := fresh 8 }
    let before : List Move := [.trigger, .job "a" (some 1), .job "b" none, .job "a" (some (-1)), .job "a" (some 2)]
    let after : List Move := .job "b" (some (-2)) :: .close true :: List.replicate 14 (.advance 0)
    ∃ history s history' s', start.run before = some (history, s) ∧ start.run (before ++ after) = some (history', s') ∧
      history.lapses = [1] ∧ history'.lapses = [1, 2] ∧
      (∃ pool, Assoc.get? "b" s.pools.jobs = some pool ∧ pool.number ∉ s.pools.retired.map Pool.number ∧
        s.pools.jobPool "b" (some (-2)) =
          (.error (.fault .badValue), { s.pools with retired := s.pools.retired ++ [pool] })) ∧
      s'.pools.created = 4 ∧ ∀ n < 4, s'.pools.shut.count n = 1 + [1, 2].count n := by
  intro start before after
  have hbefore : (start.run before).map (fun r => (r.1.lapses, r.2.pools)) = some ([1],
      { defaultSize := 8, trigger := some ⟨0, 8, "keyfetch-trigger"⟩
        jobs := [("a", ⟨3, 2, "keyfetch-a"⟩), ("b", ⟨2, 8, "keyfetch-b"⟩)]
        retired := [⟨1, 1, "keyfetch-a"⟩, ⟨1, 1, "keyfetch-a"⟩], created := 4 }) := by decide +kernel
  have hafter : (start.run (before ++ after)).map (fun r => (r.1.lapses, r.2.pools.created,
      r.2.closers.head?.map Closer.stage)) = some ([1, 2], 4, some .returned) := by decide +kernel
  obtain ⟨⟨history, s⟩, hrun, hseen⟩ := Option.map_eq_some_iff.mp hbefore
  obtain ⟨⟨history', s'⟩, hrun', hseen'⟩ := Option.map_eq_some_iff.mp hafter
  simp only [Prod.mk.injEq] at hseen hseen'
  obtain ⟨hlapses, hpools⟩ := hseen
  obtain ⟨hlapses', hcreated, hreturned⟩ := hseen'
  obtain ⟨c, hc, hstage⟩ := Option.map_eq_some_iff.mp hreturned
  obtain ⟨-, hfails, hretired, -⟩ := lapses_of_run hrun
  obtain ⟨-, -, -, hshut⟩ := lapses_of_run hrun'
  have hpool : Assoc.get? "b" s.pools.jobs = some ⟨2, 8, "keyfetch-b"⟩ := by
    rw [hpools]
    rfl
  have hfailed : (s.pools.jobPool "b" (some (-2))).1 = .error (.fault .badValue) ∧
      (s.pools.jobPool "b" (some (-2))).2 ≠ s.pools := by
    rw [hpools]
    exact ⟨rfl, by decide⟩
  refine ⟨history, s, history', s', hrun, hrun', hlapses, hlapses', ⟨_, hpool, ?_, ?_⟩, hcreated, ?_⟩
  · rw [hretired "b" _ hpool, hlapses]
    decide
  · rcases hfails "b" (some (-2)) _ _ (Prod.ext hfailed.1 rfl) with hsame | ⟨pool, hpool', -, -, hset⟩
    · exact absurd hsame hfailed.2
    · cases hpool.symm.trans hpool'
      exact Prod.ext hfailed.1 hset
  · rw [← hcreated, ← hlapses']
    exact hshut c hc hstage

/-- The pool of a job that asks for a size that no pool can have is set aside while it stays the pool of the job, and
closing shuts it down twice. -/
theorem lapse_shut_twice :
    let p := ((fresh 8).jobPool "a" (some 1)).2
    ∃ f pool p', p.jobPool "a" (some (-1)) = (.error f, p') ∧ p' ≠ p ∧ Assoc.get? "a" p'.jobs = some pool ∧
      pool ∈ p'.retired ∧ p'.close.shut.count pool.number = 2 :=
  ⟨.fault .badValue, ⟨0, 1, "keyfetch-a"⟩, _, rfl, by decide, rfl, by decide, by decide⟩

end System

end DocFetch.Pools
