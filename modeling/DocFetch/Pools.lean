import DocFetch.Assoc
import DocFetch.Failure

/-! # Worker pools

One pool for runs that a timer starts, and one per job for its invocations, replaced when its size
changes. Closing takes two steps: the first refuses new runs, and when those that started have ended the
second shuts everything down.
-/

namespace DocFetch

/-- A pool with its number in order of creation. -/
structure Pool where
  number : Nat
  size : Int
  label : String
deriving DecidableEq, Repr

structure Pools where
  defaultSize : Int := 8
  trigger : Option Pool := none
  jobs : List (String × Pool) := []
  retired : List Pool := []
  closing : Bool := false
  closed : Bool := false
  created : Nat := 0
  /-- The numbers of the pools that were shut down, in order. -/
  shut : List Nat := []
deriving DecidableEq, Repr

namespace Pools

/-- A pool has one worker at least. -/
def create (p : Pools) (size : Int) (label : String) : Except Failure (Pool × Pools) :=
  if size ≤ 0 then .error (.fault .badValue)
  else .ok (⟨p.created, size, label⟩, { p with created := p.created + 1 })

/-- The pool for runs that a timer starts. -/
def triggerPool (p : Pools) : Except Failure Pool × Pools :=
  if p.closing then (.error (.refused .poolsClosing), p)
  else
    match p.trigger with
    | some pool => (.ok pool, p)
    | none =>
      match p.create p.defaultSize "keyfetch-trigger" with
      | .ok (pool, p) => (.ok pool, { p with trigger := some pool })
      | .error f => (.error f, p)

/-- The size asked for, where nothing and zero stand for the default. -/
def sizeOr (p : Pools) (size : Option Int) : Int :=
  match size with
  | some n => if n = 0 then p.defaultSize else n
  | none => p.defaultSize

/-- The pool of a job; one of another size is set aside for those that still use it. -/
def jobPool (p : Pools) (job : String) (size : Option Int := none) : Except Failure Pool × Pools :=
  let size := p.sizeOr size
  if p.closed then (.error (.refused .poolsClosed), p)
  else
    match Assoc.get? job p.jobs with
    | some pool => if pool.size = size then (.ok pool, p) else replace { p with retired := p.retired ++ [pool] } size
    | none => replace p size
where
  replace (p : Pools) (size : Int) : Except Failure Pool × Pools :=
    match p.create size ("keyfetch-" ++ job) with
    | .ok (pool, p) => (.ok pool, { p with jobs := Assoc.put job pool p.jobs })
    | .error f => (.error f, p)

/-- From here on some pools take no work. -/
def shutDown (p : Pools) (pools : List Pool) : Pools := { p with shut := p.shut ++ pools.map Pool.number }

def runPools (p : Pools) : List Pool := p.trigger.toList

def jobPools (p : Pools) : List Pool := p.jobs.map Prod.snd ++ p.retired

/-- From here on no run starts. Gives the pool for runs, which is to be shut down. -/
def refuseRuns (p : Pools) : List Pool × Pools := (p.runPools, { p with closing := true, trigger := none })

/-- From here on there are no pools. Gives those of the jobs, which are to be shut down. -/
def refuseJobs (p : Pools) : List Pool × Pools :=
  (p.jobPools, { p with closed := true, jobs := [], retired := [] })

/-- The pool for runs is shut down once no run starts. -/
def beginClose (p : Pools) : Pools := let (pools, p) := p.refuseRuns; p.shutDown pools

/-- Once the runs that started have ended, all pools of jobs are shut down. -/
def finishClose (p : Pools) : Pools := let (pools, p) := p.refuseJobs; p.shutDown pools

/-- Closes once; closing again does nothing. -/
def close (p : Pools) : Pools := if p.closing then p else p.beginClose.finishClose

/-- Whether a pool takes work. -/
def accepts (p : Pools) (number : Nat) : Bool := number < p.created && !p.shut.contains number

end Pools

end DocFetch
