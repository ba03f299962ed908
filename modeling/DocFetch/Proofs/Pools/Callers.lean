import DocFetch.Pools
import Mathlib.Logic.Function.Basic

/-! # Pools that several callers use

Requests and the two sections of closing each happen at once. Between them, and while a call that closes shuts
down what it took, anything else can happen.
-/

namespace DocFetch.Pools

/-! ## Requests -/

/-- What a request does where pools are `held`: it gives one of them, or a new one that is held from then on. -/
structure Granted (held : Pools → List Pool) (p : Pools) (r : Except Failure Pool) (p' : Pools) : Prop where
  pools : ∀ pool, pool ∈ held p' ↔ pool ∈ held p ∨ r = .ok pool
  created : p'.created = p.created ∧ (∀ pool, r = .ok pool → pool ∈ held p) ∨
    p'.created = p.created + 1 ∧ ∃ pool, r = .ok pool ∧ pool.number = p.created
  closing : p'.closing = p.closing
  closed : p'.closed = p.closed
  shut : p'.shut = p.shut

variable {p : Pools}

/-- The pools that are to be shut down when the pools are closed. -/
def heldPools (p : Pools) : List Pool := p.runPools ++ p.jobPools

/-- The number of the pool that a request gave. -/
def given (r : Except Failure Pool) : List Nat := (r.toOption.map Pool.number).toList

namespace Granted

variable {held : Pools → List Pool} {r : Except Failure Pool} {p' : Pools} {n : Nat}

theorem mem_given (h : Granted held p r p') (hn : n ∈ given r) :
    (∃ pool ∈ held p, pool.number = n) ∨ n = p.created ∧ p'.created = p.created + 1 := by
  cases r with
  | error f => cases hn
  | ok pool =>
    cases List.mem_singleton.mp hn
    rcases h.created with ⟨-, hheld⟩ | ⟨hcreated, other, hother, hnumber⟩
    · exact .inl ⟨pool, hheld pool rfl, rfl⟩
    · cases hother
      exact .inr ⟨hnumber, hcreated⟩

theorem created_le (h : Granted held p r p') : p.created ≤ p'.created := by
  rcases h.created with ⟨hsame, -⟩ | ⟨hnew, -⟩ <;> omega

theorem of_runPools (h : Granted runPools p r p') (hjobs : p'.jobPools = p.jobPools) : Granted heldPools p r p' where
  pools pool := by
    rw [heldPools, List.mem_append, h.pools, hjobs, heldPools, List.mem_append, or_right_comm]
  created := h.created.imp_left fun hsame => ⟨hsame.1, fun pool hr => List.mem_append_left _ (hsame.2 pool hr)⟩
  closing := h.closing
  closed := h.closed
  shut := h.shut

theorem of_jobPools (h : Granted jobPools p r p') (hruns : p'.runPools = p.runPools) : Granted heldPools p r p' where
  pools pool := by
    rw [heldPools, List.mem_append, h.pools, hruns, heldPools, List.mem_append, or_assoc]
  created := h.created.imp_left fun hsame => ⟨hsame.1, fun pool hr => List.mem_append_right _ (hsame.2 pool hr)⟩
  closing := h.closing
  closed := h.closed
  shut := h.shut

end Granted

theorem create_of_pos {size : Int} (h : 0 < size) (label : String) :
    p.create size label = .ok (⟨p.created, size, label⟩, { p with created := p.created + 1 }) :=
  if_neg (Int.not_le.mpr h)

theorem create_of_le {size : Int} (h : size ≤ 0) (label : String) :
    p.create size label = .error (.fault .badValue) := if_pos h

theorem triggerPool_of_closing (h : p.closing = true) : p.triggerPool = (.error (.refused .poolsClosing), p) := by
  unfold triggerPool
  rw [if_pos h]

theorem jobPool_of_closed (h : p.closed = true) (job : String) (size : Option Int) :
    p.jobPool job size = (.error (.refused .poolsClosed), p) := by
  unfold jobPool
  rw [if_pos h]

section Answers

variable {p' : Pools} {name : String} {size : Option Int} {r : Except Failure Pool}

/-- The pool that is created next. -/
def next (p : Pools) (size : Int) (label : String) : Pool := ⟨p.created, size, label⟩

/-- What a request for runs is answered and what it leaves. -/
inductive RunAnswer (p : Pools) : Except Failure Pool → Pools → Prop
  | refused (hclosing : p.closing = true) : RunAnswer p (.error (.refused .poolsClosing)) p
  | kept {pool : Pool} (hopen : p.closing = false) (hpool : p.trigger = some pool) : RunAnswer p (.ok pool) p
  | created (hopen : p.closing = false) (hnone : p.trigger = none) (hpos : 0 < p.defaultSize) :
      RunAnswer p (.ok (p.next p.defaultSize "keyfetch-trigger"))
        { p with created := p.created + 1, trigger := some (p.next p.defaultSize "keyfetch-trigger") }
  | failed (hopen : p.closing = false) (hnone : p.trigger = none) (hbad : p.defaultSize ≤ 0) :
      RunAnswer p (.error (.fault .badValue)) p

theorem runAnswer (p : Pools) : RunAnswer p p.triggerPool.1 p.triggerPool.2 := by
  unfold triggerPool
  cases hclosing : p.closing with
  | true => exact .refused hclosing
  | false =>
    rw [if_neg Bool.false_ne_true]
    cases htrigger : p.trigger with
    | some pool => exact .kept hclosing htrigger
    | none =>
      by_cases hpos : 0 < p.defaultSize
      · rw [create_of_pos hpos]
        exact .created hclosing htrigger hpos
      · rw [create_of_le (Int.not_lt.mp hpos)]
        exact .failed hclosing htrigger (Int.not_lt.mp hpos)

theorem RunAnswer.jobs (h : RunAnswer p r p') :
    p'.defaultSize = p.defaultSize ∧ p'.closed = p.closed ∧ p'.jobs = p.jobs ∧ p'.retired = p.retired := by
  cases h <;> exact ⟨rfl, rfl, rfl, rfl⟩

theorem RunAnswer.exists_ok (h : RunAnswer p r p') (hopen : p.closing = false) (hpos : 0 < p.defaultSize) :
    ∃ pool, r = .ok pool := by
  cases h with
  | refused hclosing =>
    rw [hopen] at hclosing
    cases hclosing
  | kept => exact ⟨_, rfl⟩
  | created => exact ⟨_, rfl⟩
  | failed _ _ hbad => omega

theorem RunAnswer.of_closing (h : RunAnswer p r p') (hclosing : p.closing = true) :
    r = .error (.refused .poolsClosing) ∧ p' = p := by
  cases h with
  | refused _ => exact ⟨rfl, rfl⟩
  | kept hopen | created hopen | failed hopen =>
    rw [hopen] at hclosing
    cases hclosing

/-- The pool of a job is set aside before another one is created for it. -/
def setAside (p : Pools) (job : String) : Pools :=
  { p with retired := p.retired ++ (Assoc.get? job p.jobs).toList }

/-- What a request by a job is answered and what it leaves. -/
inductive JobAnswer (p : Pools) (job : String) (size : Option Int) : Except Failure Pool → Pools → Prop
  | refused (hclosed : p.closed = true) : JobAnswer p job size (.error (.refused .poolsClosed)) p
  | kept {pool : Pool} (hopen : p.closed = false) (hpool : Assoc.get? job p.jobs = some pool)
      (hsize : pool.size = p.sizeOr size) : JobAnswer p job size (.ok pool) p
  | created (hopen : p.closed = false) (hother : ∀ pool ∈ Assoc.get? job p.jobs, pool.size ≠ p.sizeOr size)
      (hpos : 0 < p.sizeOr size) :
      JobAnswer p job size (.ok (p.next (p.sizeOr size) ("keyfetch-" ++ job)))
        { p.setAside job with
          created := p.created + 1
          jobs := Assoc.put job (p.next (p.sizeOr size) ("keyfetch-" ++ job)) p.jobs }
  | failed (hopen : p.closed = false) (hother : ∀ pool ∈ Assoc.get? job p.jobs, pool.size ≠ p.sizeOr size)
      (hbad : p.sizeOr size ≤ 0) : JobAnswer p job size (.error (.fault .badValue)) (p.setAside job)

private theorem jobAnswer_replace (name : String) (size : Option Int) (hopen : p.closed = false)
    (hother : ∀ pool ∈ Assoc.get? name p.jobs, pool.size ≠ p.sizeOr size) :
    JobAnswer p name size (jobPool.replace name (p.setAside name) (p.sizeOr size)).1
      (jobPool.replace name (p.setAside name) (p.sizeOr size)).2 := by
  unfold jobPool.replace
  by_cases hpos : 0 < p.sizeOr size
  · rw [create_of_pos hpos]
    exact .created hopen hother hpos
  · rw [create_of_le (Int.not_lt.mp hpos)]
    exact .failed hopen hother (Int.not_lt.mp hpos)

theorem jobAnswer (p : Pools) (name : String) (size : Option Int) :
    JobAnswer p name size (p.jobPool name size).1 (p.jobPool name size).2 := by
  by_cases hclosed : p.closed = true
  · rw [jobPool_of_closed hclosed]
    exact .refused hclosed
  · have hopen : p.closed = false := by simpa using hclosed
    unfold jobPool
    dsimp only
    rw [if_neg hclosed]
    cases hjob : Assoc.get? name p.jobs with
    | none =>
      have hsame : p.setAside name = p := by
        rw [setAside, hjob, Option.toList_none, List.append_nil]
      have hreplace := jobAnswer_replace name size hopen (by simp [hjob])
      rwa [hsame] at hreplace
    | some pool =>
      dsimp only
      by_cases hsize : pool.size = p.sizeOr size
      · rw [if_pos hsize]
        exact .kept hopen hjob hsize
      · rw [if_neg hsize]
        have hreplace := jobAnswer_replace name size hopen (by simpa [hjob] using hsize)
        rwa [setAside, hjob, Option.toList_some] at hreplace

theorem JobAnswer.of_closed (h : JobAnswer p name size r p') (hclosed : p.closed = true) :
    r = .error (.refused .poolsClosed) ∧ p' = p := by
  cases h with
  | refused _ => exact ⟨rfl, rfl⟩
  | kept hopen | created hopen | failed hopen =>
    rw [hopen] at hclosed
    cases hclosed

theorem JobAnswer.runs (h : JobAnswer p name size r p') :
    p'.defaultSize = p.defaultSize ∧ p'.closing = p.closing ∧ p'.trigger = p.trigger := by
  cases h <;> exact ⟨rfl, rfl, rfl⟩

theorem RunAnswer.granted (h : RunAnswer p r p') (hopen : p.closing = false) :
    Granted runPools p r p' ∧ p'.jobPools = p.jobPools := by
  cases h with
  | refused hclosing =>
    rw [hopen] at hclosing
    cases hclosing
  | @kept pool _ hpool =>
    refine ⟨⟨fun other => ?_, .inl ⟨rfl, fun other heq => ?_⟩, rfl, rfl, rfl⟩, rfl⟩
    · simp [runPools, hpool, eq_comm]
    · cases heq
      simp [runPools, hpool]
  | created _ hnone _ =>
    refine ⟨⟨fun other => ?_, .inr ⟨rfl, _, rfl, rfl⟩, rfl, rfl, rfl⟩, rfl⟩
    simp [runPools, hnone, eq_comm]
  | failed _ _ _ =>
    exact ⟨⟨fun other => by simp, .inl ⟨rfl, fun other heq => by cases heq⟩, rfl, rfl, rfl⟩, rfl⟩

theorem JobAnswer.granted (h : JobAnswer p name size r p') (hopen : p.closed = false) :
    Granted jobPools p r p' ∧ p'.runPools = p.runPools := by
  -- the pool that is set aside was one of those of jobs
  have hheld (pool : Pool) : pool ∈ (Assoc.get? name p.jobs).toList → pool ∈ p.jobs.map Prod.snd := by
    rw [Option.mem_toList]
    intro hget
    obtain ⟨e, he, rfl⟩ := Assoc.exists_mem_of_get? hget
    exact List.mem_map_of_mem he
  cases h with
  | refused hclosed =>
    rw [hopen] at hclosed
    cases hclosed
  | @kept pool _ hpool _ =>
    have hmem : pool ∈ p.jobPools := List.mem_append_left _ (hheld pool (by simp [hpool]))
    refine ⟨⟨fun other => ?_, .inl ⟨rfl, fun other heq => ?_⟩, rfl, rfl, rfl⟩, rfl⟩
    · simpa using fun heq => heq ▸ hmem
    · cases heq
      exact hmem
  | created _ _ _ =>
    refine ⟨⟨fun pool => ?_, .inr ⟨rfl, _, rfl, rfl⟩, rfl, rfl, rfl⟩, rfl⟩
    have hvalues := Assoc.mem_values_put (k := name) (v := p.next (p.sizeOr size) ("keyfetch-" ++ name)) (w := pool)
      (l := p.jobs)
    simp only [jobPools, setAside, List.mem_append, Except.ok.injEq] at hvalues ⊢
    grind
  | failed _ _ _ =>
    refine ⟨⟨fun pool => ?_, .inl ⟨rfl, fun pool heq => by cases heq⟩, rfl, rfl, rfl⟩, rfl⟩
    have hpool := hheld pool
    simp only [jobPools, setAside, List.mem_append, reduceCtorEq, or_false]
    grind

theorem JobAnswer.exists_ok (h : JobAnswer p name size r p') (hopen : p.closed = false) (hpos : 0 < p.sizeOr size) :
    ∃ pool, r = .ok pool := by
  cases h with
  | refused hclosed =>
    rw [hopen] at hclosed
    cases hclosed
  | kept => exact ⟨_, rfl⟩
  | created => exact ⟨_, rfl⟩
  | failed _ _ hbad => omega

end Answers

/-! ## Callers -/

/-- Where a call that closes is: after its first section, after its second, or back. -/
inductive Stage
  | draining
  | sweeping
  | returned
deriving DecidableEq

/-- A call that closes. It shuts down one by one the pools that it took, and awaits the work of each if it is
to wait. -/
structure Closer where
  wait : Bool
  stage : Stage
  todo : List Pool := []
  awaited : Option Nat := none

/-- What a call that closes does next: nothing while it awaits work that is not done, and after it is back. -/
def Closer.next (c : Closer) (work : Nat → Nat) (p : Pools) : Option (Closer × Pools) :=
  match c.awaited with
  | some n => if c.wait = true ∧ work n ≠ 0 then none else some ({ c with awaited := none }, p)
  | none =>
    match c.todo, c.stage with
    | pool :: todo, _ => some ({ c with todo, awaited := some pool.number }, p.shutDown [pool])
    | [], .draining => some ({ c with stage := .sweeping, todo := p.refuseJobs.1 }, p.refuseJobs.2)
    | [], .sweeping => some ({ c with stage := .returned }, p)
    | [], .returned => none

/-- What a call that closes has done when it went on. -/
inductive Closer.Next (c : Closer) (work : Nat → Nat) (p : Pools) : Closer → Pools → Prop
  | awaited {n : Nat} (hn : c.awaited = some n) (hdone : c.wait = true → work n = 0) :
      Next c work p { c with awaited := none } p
  | shut {pool : Pool} {todo : List Pool} (hnone : c.awaited = none) (htodo : c.todo = pool :: todo) :
      Next c work p { c with todo, awaited := some pool.number } (p.shutDown [pool])
  | sweep (hnone : c.awaited = none) (htodo : c.todo = []) (hstage : c.stage = .draining) :
      Next c work p { c with stage := .sweeping, todo := p.refuseJobs.1 } p.refuseJobs.2
  | back (hnone : c.awaited = none) (htodo : c.todo = []) (hstage : c.stage = .sweeping) :
      Next c work p { c with stage := .returned } p

theorem Closer.next_cases {c c' : Closer} {work : Nat → Nat} {p p' : Pools} (h : c.next work p = some (c', p')) :
    c.Next work p c' p' := by
  cases hawaited : c.awaited with
  | some n =>
    rw [Closer.next, hawaited] at h
    dsimp only at h
    split at h
    · cases h
    · rename_i hdone
      cases h
      exact .awaited hawaited fun hwait => by_contra fun hwork => hdone ⟨hwait, hwork⟩
  | none =>
    rw [Closer.next, hawaited] at h
    dsimp only at h
    split at h
    · rename_i htodo
      cases h
      exact .shut hawaited htodo
    · rename_i htodo hstage
      cases h
      rw [← hawaited]
      exact .sweep hawaited htodo hstage
    · rename_i htodo hstage
      cases h
      rw [← hawaited]
      exact .back hawaited htodo hstage
    · cases h

theorem Closer.Next.swept {c c' : Closer} {work : Nat → Nat} {p p' : Pools} (h : c.Next work p c' p')
    (hstage : c.stage ≠ .draining) : c'.stage ≠ .draining ∧ p'.created = p.created := by
  cases h with
  | awaited _ _ => exact ⟨hstage, rfl⟩
  | shut _ _ => exact ⟨hstage, rfl⟩
  | sweep _ _ hdraining => exact absurd hdraining hstage
  | back _ _ _ => exact ⟨(fun hdraining => by cases hdraining), rfl⟩

structure System where
  pools : Pools
  /-- How much work of each pool is not done, by the number of the pool. -/
  work : Nat → Nat := fun _ => 0
  /-- The calls that close, in the order of their first sections. -/
  closers : List Closer := []

/-- What any caller, or any worker, may do next. -/
inductive Move
  | trigger
  | job (name : String) (size : Option Int)
  | submit (number : Nat)
  | finish (number : Nat)
  | close (wait : Bool)
  | advance (closer : Nat)

/-- What a request was answered. -/
abbrev Answer := Option (Except Failure Pool)

namespace System

/-- The first section of a call that closes; only the first call has anything to do. -/
def enter (s : System) (wait : Bool) : System :=
  if s.pools.closing then { s with closers := s.closers ++ [{ wait, stage := .returned }] }
  else { s with
    pools := s.pools.refuseRuns.2
    closers := s.closers ++ [{ wait, stage := .draining, todo := s.pools.refuseRuns.1 }] }

/-- The next state, if a move is possible: only pools that take work are given some. -/
def step (s : System) : Move → Option (Answer × System)
  | .trigger => some (some s.pools.triggerPool.1, { s with pools := s.pools.triggerPool.2 })
  | .job name size => some (some (s.pools.jobPool name size).1, { s with pools := (s.pools.jobPool name size).2 })
  | .submit n =>
    if s.pools.accepts n then some (none, { s with work := Function.update s.work n (s.work n + 1) }) else none
  | .finish n =>
    if s.work n = 0 then none else some (none, { s with work := Function.update s.work n (s.work n - 1) })
  | .close wait => some (none, s.enter wait)
  | .advance i =>
    match s.closers[i]? with
    | some c => (c.next s.work s.pools).map fun r => (none, { s with pools := r.2, closers := s.closers.set i r.1 })
    | none => none

/-- What a move that is possible has done. -/
inductive Step (s : System) : Move → Answer → System → Prop
  | trigger {r : Except Failure Pool} {p' : Pools} (hr : RunAnswer s.pools r p') :
      Step s .trigger (some r) { s with pools := p' }
  | job {name : String} {size : Option Int} {r : Except Failure Pool} {p' : Pools}
      (hr : JobAnswer s.pools name size r p') : Step s (.job name size) (some r) { s with pools := p' }
  | submit {n : Nat} (hn : s.pools.accepts n = true) :
      Step s (.submit n) none { s with work := Function.update s.work n (s.work n + 1) }
  | finish (n : Nat) : Step s (.finish n) none { s with work := Function.update s.work n (s.work n - 1) }
  | close (wait : Bool) : Step s (.close wait) none (s.enter wait)
  | advance {i : Nat} {c c' : Closer} {p' : Pools} (hi : s.closers[i]? = some c)
      (hnext : c.next s.work s.pools = some (c', p')) :
      Step s (.advance i) none { s with pools := p', closers := s.closers.set i c' }

theorem step_cases {s s' : System} {m : Move} {a : Answer} (h : s.step m = some (a, s')) : s.Step m a s' := by
  cases m with
  | trigger =>
    cases h
    exact .trigger (runAnswer s.pools)
  | job name size =>
    cases h
    exact .job (jobAnswer s.pools name size)
  | submit n =>
    obtain ⟨hn, h⟩ := Option.ite_none_right_eq_some.mp h
    cases h
    exact .submit hn
  | finish n =>
    obtain ⟨-, h⟩ := Option.ite_none_left_eq_some.mp h
    cases h
    exact .finish n
  | close wait =>
    cases h
    exact .close wait
  | advance i =>
    rw [step] at h
    split at h
    · rename_i c hi
      obtain ⟨⟨c', p'⟩, hnext, hs'⟩ := Option.map_eq_some_iff.mp h
      cases hs'
      exact .advance hi hnext
    · cases h

end System

/-- Moves with what they answered. -/
abbrev History := List (Move × Answer)

namespace History

/-- The numbers of the pools that were given for runs. -/
def runs (h : History) : List Nat := h.filterMap fun
  | (.trigger, some (.ok pool)) => some pool.number
  | _ => none

/-- The numbers of the pools that were given to jobs. -/
def jobs (h : History) : List Nat := h.filterMap fun
  | (.job .., some (.ok pool)) => some pool.number
  | _ => none

theorem runs_append (h h' : History) : runs (h ++ h') = runs h ++ runs h' := List.filterMap_append ..

theorem jobs_append (h h' : History) : jobs (h ++ h') = jobs h ++ jobs h' := List.filterMap_append ..

end History

namespace System

/-- Does the moves in order, if they are possible. -/
def run (s : System) : List Move → Option (History × System)
  | [] => some ([], s)
  | m :: rest => do
    let (a, s) ← s.step m
    let (h, s) ← s.run rest
    return ((m, a) :: h, s)

theorem run_cons {s s' : System} {m : Move} {rest : List Move} {history : History}
    (h : s.run (m :: rest) = some (history, s')) :
    ∃ a t tail, s.step m = some (a, t) ∧ t.run rest = some (tail, s') ∧ history = (m, a) :: tail := by
  obtain ⟨⟨a, t⟩, hstep, h⟩ := Option.bind_eq_some_iff.mp h
  obtain ⟨⟨tail, u⟩, htail, h⟩ := Option.bind_eq_some_iff.mp h
  cases h
  exact ⟨a, t, tail, hstep, htail, rfl⟩

theorem run_append {s t u : System} {moves rest : List Move} {history tail : History}
    (h : s.run moves = some (history, t)) (hrest : t.run rest = some (tail, u)) :
    s.run (moves ++ rest) = some (history ++ tail, u) := by
  induction moves generalizing s history with
  | nil =>
    cases h
    exact hrest
  | cons m moves ih =>
    obtain ⟨a, s', history, hstep, hmoves, rfl⟩ := run_cons h
    rw [List.cons_append, run, hstep, Option.bind_eq_bind, Option.bind_some]
    dsimp only
    rw [ih hmoves]
    rfl

/-- What every step preserves of the moves so far and of the state, runs preserve. -/
theorem run_induction {P : History → System → Prop}
    (step : ∀ {history s m a s'}, P history s → s.step m = some (a, s') → P (history ++ [(m, a)]) s')
    {s s' : System} {history tail : History} {moves : List Move} (h : P history s)
    (hrun : s.run moves = some (tail, s')) : P (history ++ tail) s' := by
  induction moves generalizing history s tail with
  | nil =>
    cases hrun
    rwa [List.append_nil]
  | cons m rest ih =>
    obtain ⟨a, t, tail, hstep, htail, rfl⟩ := run_cons hrun
    have hrest := ih (step h hstep) htail
    rwa [List.append_assoc] at hrest

/-! ## A call by itself -/

def Reaches (s s' : System) : Prop := ∃ moves history, s.run moves = some (history, s')

namespace Reaches

variable {s t u : System}

theorem trans (h : s.Reaches t) (h' : t.Reaches u) : s.Reaches u := by
  obtain ⟨moves, history, hrun⟩ := h
  obtain ⟨rest, tail, hrest⟩ := h'
  exact ⟨_, _, run_append hrun hrest⟩

theorem of_step {m : Move} {a : Answer} (h : s.step m = some (a, t)) : s.Reaches t :=
  ⟨[m], [(m, a)], by rw [run, h]; rfl⟩

end Reaches

theorem reaches_shutDown (wait : Bool) (stage : Stage) (todo : List Pool) (p : Pools) :
    Reaches { pools := p, closers := [{ wait, stage, todo }] }
      { pools := p.shutDown todo, closers := [{ wait, stage }] } := by
  induction todo generalizing p with
  | nil => exact ⟨[], [], by simp [run, Pools.shutDown]⟩
  | cons pool todo ih =>
    have hshut : (p.shutDown [pool]).shutDown todo = p.shutDown (pool :: todo) := by simp [Pools.shutDown]
    have hstart : Reaches { pools := p, closers := [{ wait, stage, todo := pool :: todo }] }
        { pools := p.shutDown [pool], closers := [{ wait, stage, todo, awaited := some pool.number }] } :=
      .of_step (m := .advance 0) rfl
    have hdone : Reaches
        { pools := p.shutDown [pool], closers := [{ wait, stage, todo, awaited := some pool.number }] }
        { pools := p.shutDown [pool], closers := [{ wait, stage, todo }] } := by
      refine .of_step (m := .advance 0) (a := none) ?_
      simp [step, Closer.next]
    exact hshut ▸ (hstart.trans hdone).trans (ih (p.shutDown [pool]))

theorem reaches_close (p : Pools) (wait : Bool) :
    Reaches { pools := p } { pools := p.close, closers := [{ wait, stage := .returned }] } := by
  have henter : Reaches { pools := p } (enter { pools := p } wait) := .of_step (m := .close wait) rfl
  refine henter.trans ?_
  unfold enter close
  cases hclosing : p.closing with
  | true => exact ⟨[], [], rfl⟩
  | false =>
    have hsweep : Reaches { pools := p.beginClose, closers := [{ wait, stage := .draining }] }
        { pools := p.beginClose.refuseJobs.2
          closers := [{ wait, stage := .sweeping, todo := p.beginClose.refuseJobs.1 }] } :=
      .of_step (m := .advance 0) rfl
    have hback : Reaches { pools := p.beginClose.finishClose, closers := [{ wait, stage := .sweeping }] }
        { pools := p.beginClose.finishClose, closers := [{ wait, stage := .returned }] } :=
      .of_step (m := .advance 0) rfl
    exact (((reaches_shutDown wait .draining _ _).trans hsweep).trans (reaches_shutDown wait .sweeping _ _)).trans hback

end System

end DocFetch.Pools
