import DocFetch.Job.Runner
import DocFetch.Proofs.Job.Visits

/-! # Workers

The invocations of a batch are tasks of a pool. The caller submits them, collects those that ended and then
closes the router and the store, while workers go through the tasks one step at a time. What a step shares with
the other workers it does at once; everything else can happen between two steps.
-/

namespace DocFetch

variable {σ : Type}

/-! ## Tasks -/

/-- How far an invocation is. -/
inductive Stage
  | queued
  | taken
  | answered (id : String) (answer : Except Failure (Document ByteArray))
  | failed (e : Failure)
  | attended (v : Visit)
  | ended (outcome : Except Failure Invocation)

namespace Stage

def isQueued : Stage → Bool
  | queued => true
  | _ => false

def isEnded : Stage → Bool
  | ended _ => true
  | _ => false

end Stage

namespace Fetcher

/-- The next step of the worker that has an invocation. -/
def next (f : Fetcher σ) (record : Option Record) (stage : Stage) (x : Router σ × σ) :
    Option (Stage × (Router σ × σ)) :=
  match stage with
  | .queued | .ended _ => none
  | .taken =>
    match resolveDocumentId f.config f.resolver record with
    | .ok id =>
      let (answer, s) := (f.read id).exec x.2
      some (.answered id answer, x.1, s)
    | .error e => some (.failed e, x)
  | .answered id answer =>
    match FetchResult.ofRead answer with
    | .ok result =>
      match (f.conclude record id result).exec x.2 with
      | (.ok transfers, s) => some (.attended (.completed record id result transfers), x.1, s)
      | (.error e, s) => some (.failed e, x.1, s)
    | .error e => some (.failed e, x)
  | .failed e =>
    let (outcome, s) := (f.abort record e).exec x.2
    some (.ended (outcome.map Visit.invocation), x.1, s)
  | .attended v =>
    let (outcome, x) := (Router.route v.transfers).exec x
    some (.ended (outcome.map fun _ => v.invocation), x)

/-- Steps with nothing between them. -/
inductive Finishes (f : Fetcher σ) (record : Option Record) :
    Stage → Router σ × σ → Except Failure Invocation → Router σ × σ → Prop
  | ended {outcome : Except Failure Invocation} {x : Router σ × σ} : Finishes f record (.ended outcome) x outcome x
  | step {stage stage' : Stage} {x x' y : Router σ × σ} {outcome : Except Failure Invocation} :
      f.next record stage x = some (stage', x') → Finishes f record stage' x' outcome y →
      Finishes f record stage x outcome y

variable {f : Fetcher σ} {record : Option Record} {r : Router σ} {s t : σ}

theorem isEnded_of_next {stage stage' : Stage} {x y : Router σ × σ}
    (h : f.next record stage x = some (stage', y)) : stage.isEnded = false := by
  cases stage with
  | ended outcome => cases h
  | _ => rfl

theorem finishes_failed (f : Fetcher σ) (record : Option Record) (e : Failure) (x : Router σ × σ) :
    f.Finishes record (.failed e) x (((f.abort record e).exec x.2).1.map Visit.invocation)
      (x.1, ((f.abort record e).exec x.2).2) := .step rfl .ended

theorem finishes_attended (f : Fetcher σ) (record : Option Record) (v : Visit) (x : Router σ × σ) :
    f.Finishes record (.attended v) x (((Router.route v.transfers).exec x).1.map fun _ => v.invocation)
      ((Router.route v.transfers).exec x).2 := .step rfl .ended

theorem exec_invoke_of_error {e : Failure} (h : (f.fetch record).exec s = (.error e, t)) :
    (f.invoke record).exec (r, s) =
      (((f.abort record e).exec t).1.map Visit.invocation, r, ((f.abort record e).exec t).2) := by
  have hbeside : (Router.beside (f.attend record)).exec (r, s) =
      (((f.abort record e).exec t).1, r, ((f.abort record e).exec t).2) := by
    rw [Router.exec_beside, exec_attend_of_error h]
  rw [invoke_eq]
  cases habort : ((f.abort record e).exec t).1 with
  | error e' =>
    rw [habort] at hbeside
    rw [Action.exec_bind_error hbeside]
    rfl
  | ok v =>
    rw [habort] at hbeside
    obtain ⟨-, rfl, -⟩ := abort_eq_ok_iff.mp (Prod.ext habort rfl)
    rw [Action.exec_bind_ok hbeside]
    rfl

theorem exec_invoke_of_ok {o : FetchOutcome} (h : (f.fetch record).exec s = (.ok o, t)) :
    (f.invoke record).exec (r, s) =
      (((Router.route o.transfers).exec (r, t)).1.map fun _ =>
        (Visit.completed record o.documentId o.result o.transfers).invocation,
        ((Router.route o.transfers).exec (r, t)).2) := by
  have hbeside : (Router.beside (f.attend record)).exec (r, s) =
      (.ok (.completed record o.documentId o.result o.transfers), r, t) := by
    rw [Router.exec_beside, exec_attend_of_ok h]
  rw [invoke_eq, Action.exec_bind_ok hbeside]
  exact Action.exec_bind_pure _ _ _

/-- The steps of a worker that nothing comes between are the invocation. -/
theorem finishes_invoke (f : Fetcher σ) (record : Option Record) (x : Router σ × σ) :
    f.Finishes record .taken x ((f.invoke record).exec x).1 ((f.invoke record).exec x).2 := by
  obtain ⟨r, s⟩ := x
  cases hid : resolveDocumentId f.config f.resolver record with
  | error e =>
    have hnext : f.next record .taken (r, s) = some (.failed e, r, s) := by
      unfold next
      rw [hid]
    rw [exec_invoke_of_error (exec_fetch_of_fault hid s)]
    exact .step hnext (finishes_failed f record e (r, s))
  | ok id =>
    rcases hread : (f.read id).exec s with ⟨answer, t⟩
    have hnext : f.next record .taken (r, s) = some (.answered id answer, r, t) := by
      unfold next
      rw [hid]
      dsimp only
      rw [hread]
    refine .step hnext ?_
    cases hresult : FetchResult.ofRead answer with
    | error e =>
      have hfail : f.next record (.answered id answer) (r, t) = some (.failed e, r, t) := by
        unfold next
        dsimp only
        rw [hresult]
      rw [exec_invoke_of_error (exec_fetch_of_failure hid hread hresult)]
      exact .step hfail (finishes_failed f record e (r, t))
    | ok result =>
      have hfetch := exec_fetch_of_result hid hread hresult
      rcases hconclude : (f.conclude record id result).exec t with ⟨ended, u⟩
      rw [hconclude] at hfetch
      cases ended with
      | ok transfers =>
        have hattend : f.next record (.answered id answer) (r, t) =
            some (.attended (.completed record id result transfers), r, u) := by
          unfold next
          dsimp only
          rw [hresult]
          dsimp only
          rw [hconclude]
        rw [exec_invoke_of_ok hfetch]
        exact .step hattend (finishes_attended f record _ (r, u))
      | error e =>
        have hfail : f.next record (.answered id answer) (r, t) = some (.failed e, r, u) := by
          unfold next
          dsimp only
          rw [hresult]
          dsimp only
          rw [hconclude]
        rw [exec_invoke_of_error hfetch]
        exact .step hfail (finishes_failed f record e (r, u))

end Fetcher

/-! ## A batch at work -/

namespace Workers

structure Task where
  record : Option Record
  stage : Stage := .queued
  collected : Bool := false

/-- Why the caller went on to close the router: every invocation had ended well, one that was collected or the
pool had failed, or the pool took no more tasks. -/
inductive Leaving
  | finished
  | failed (e : Failure)
  | refused

def Leaving.isFinished : Leaving → Bool
  | finished => true
  | _ => false

inductive Main
  | submitting (rest : List (Option Record))
  | closingRouter (why : Leaving)
  | closingStore (why : Leaving)
  | done (why : Leaving)

/-- Why the caller left its batch, if it did. -/
def Main.left? : Main → Option Leaving
  | submitting _ => none
  | closingRouter why | closingStore why | done why => some why

/-- Whether the caller has not closed the router. -/
def Main.isOpen : Main → Bool
  | submitting _ | closingRouter _ => true
  | closingStore _ | done _ => false

structure System (σ : Type) where
  main : Main
  tasks : List Task := []
  /-- Whether the pool was shut down; the tasks that it has then are still worked on. -/
  shut : Bool := false
  world : Router σ × σ

inductive Move
  | submit
  | take
  | work (task : Nat)
  | collect (task : Nat)
  | leave
  | shutDown
  | closeRouter
  | closeStore

namespace System

def busy (s : System σ) : Nat := s.tasks.countP fun t => !t.stage.isQueued && !t.stage.isEnded

/-- A batch that starts with the pool that was asked for. -/
def start (pool : Except Failure Pool) (batch : List (Option Record)) (world : Router σ × σ) : System σ where
  main := match pool with
    | .ok _ => .submitting batch
    | .error e => .closingRouter (.failed e)
  world := world

def setTask (s : System σ) (i : Nat) (t : Task) (world : Router σ × σ) : System σ :=
  { s with tasks := s.tasks.set i t, world }

/-- What a move does where it is possible. Workers take the tasks in order, at most `size` at a time; those that
ended are collected in any order, and the first one that failed ends the collecting. -/
def step (f : Fetcher σ) (owned : Bool) (size : Nat) (s : System σ) : Move → Option (System σ)
  | .submit =>
    match s.main with
    | .submitting (record :: rest) =>
      if s.shut then some { s with main := .closingRouter .refused }
      else some { s with main := .submitting rest, tasks := s.tasks ++ [{ record }] }
    | _ => none
  | .take =>
    if s.busy < size then do
      let i ← s.tasks.findIdx? fun t => t.stage.isQueued
      let t ← s.tasks[i]?
      return s.setTask i { t with stage := .taken } s.world
    else none
  | .work i => do
    let t ← s.tasks[i]?
    let (stage, world) ← f.next t.record t.stage s.world
    return s.setTask i { t with stage } world
  | .collect i => do
    let t ← s.tasks[i]?
    match s.main, t.stage, t.collected with
    | .submitting [], .ended (.ok _), false => return s.setTask i { t with collected := true } s.world
    | .submitting [], .ended (.error e), false => return { s with main := .closingRouter (.failed e) }
    | _, _, _ => none
  | .leave =>
    match s.main with
    | .submitting [] => if s.tasks.all Task.collected then some { s with main := .closingRouter .finished } else none
    | _ => none
  | .shutDown => some { s with shut := true }
  | .closeRouter =>
    match s.main with
    | .closingRouter why =>
      match Router.close.exec s.world with
      | (.ok (), world) => some { s with main := .closingStore why, world }
      | (.error _, world) => some { s with main := .done why, world }
    | _ => none
  | .closeStore =>
    match s.main with
    | .closingStore why =>
      let close : Action (Router σ × σ) Unit := if owned then Router.beside f.store.close else pure ()
      some { s with main := .done why, world := (close.exec s.world).2 }
    | _ => none

def run (f : Fetcher σ) (owned : Bool) (size : Nat) (s : System σ) (moves : List Move) : Option (System σ) :=
  moves.foldlM (step f owned size) s

/-! ### What a move does -/

variable {f : Fetcher σ} {owned : Bool} {size : Nat} {s s' : System σ} {move : Move} {i : Nat} {t : Task}

/-- What a move leads to. A worker takes a task or goes on with it; the caller submits, collects, leaves its batch
or closes. -/
inductive Moved (f : Fetcher σ) (s : System σ) : System σ → Prop
  | submitted {record : Option Record} {rest : List (Option Record)} : s.main = .submitting (record :: rest) →
      Moved f s { s with main := .submitting rest, tasks := s.tasks ++ [{ record }] }
  | refused {rest : List (Option Record)} : s.main = .submitting rest → s.shut = true →
      Moved f s { s with main := .closingRouter .refused }
  | taken {i : Nat} {t : Task} : s.tasks[i]? = some t → t.stage = .queued →
      Moved f s (s.setTask i { t with stage := .taken } s.world)
  | worked {i : Nat} {t : Task} {stage : Stage} {world : Router σ × σ} : s.tasks[i]? = some t →
      f.next t.record t.stage s.world = some (stage, world) → Moved f s (s.setTask i { t with stage } world)
  | collected {i : Nat} {t : Task} {invocation : Invocation} : s.main = .submitting [] → s.tasks[i]? = some t →
      t.stage = .ended (.ok invocation) → Moved f s (s.setTask i { t with collected := true } s.world)
  | failed {t : Task} {e : Failure} : s.main = .submitting [] → t ∈ s.tasks → t.stage = .ended (.error e) →
      Moved f s { s with main := .closingRouter (.failed e) }
  | finished : s.main = .submitting [] → (∀ t ∈ s.tasks, t.collected = true) →
      Moved f s { s with main := .closingRouter .finished }
  | shut : Moved f s { s with shut := true }
  | closed {why : Leaving} {main : Main} {world : Router σ × σ} : s.main.left? = some why →
      main.left? = some why → main.isOpen = false → Moved f s { s with main, world }

theorem moved_of_step (h : s.step f owned size move = some s') : Moved f s s' := by
  cases move with
  | submit =>
    rw [step] at h
    split at h
    · rename_i record rest hmain
      split at h
      · rename_i hshut
        cases h
        exact .refused hmain hshut
      · cases h
        exact .submitted hmain
    · cases h
  | take =>
    rw [step] at h
    split at h
    · obtain ⟨i, hi, h⟩ := Option.bind_eq_some_iff.mp h
      obtain ⟨t, ht, h⟩ := Option.bind_eq_some_iff.mp h
      cases h
      obtain ⟨hlt, hqueued, -⟩ := List.findIdx?_eq_some_iff_getElem.mp hi
      have htask : s.tasks[i] = t := Option.some.inj ((List.getElem?_eq_getElem hlt).symm.trans ht)
      rw [htask] at hqueued
      refine .taken ht ?_
      cases hstage : t.stage with
      | queued => rfl
      | _ =>
        rw [hstage] at hqueued
        cases hqueued
    · cases h
  | work i =>
    obtain ⟨t, ht, h⟩ := Option.bind_eq_some_iff.mp h
    obtain ⟨⟨stage, world⟩, hnext, h⟩ := Option.bind_eq_some_iff.mp h
    cases h
    exact .worked ht hnext
  | collect i =>
    obtain ⟨t, ht, h⟩ := Option.bind_eq_some_iff.mp h
    split at h
    · rename_i hmain hstage _
      cases h
      exact .collected hmain ht hstage
    · rename_i hmain hstage _
      cases h
      exact .failed hmain (List.mem_of_getElem? ht) hstage
    · cases h
  | leave =>
    rw [step] at h
    split at h
    · rename_i hmain
      split at h
      · rename_i hall
        cases h
        exact .finished hmain (List.all_eq_true.mp hall)
      · cases h
    · cases h
  | shutDown =>
    cases h
    exact .shut
  | closeRouter =>
    rw [step] at h
    split at h
    · rename_i why hmain
      split at h
      · cases h
        exact .closed (congrArg Main.left? hmain) rfl rfl
      · cases h
        exact .closed (congrArg Main.left? hmain) rfl rfl
    · cases h
  | closeStore =>
    rw [step] at h
    split at h
    · rename_i why hmain
      cases h
      exact .closed (congrArg Main.left? hmain) rfl rfl
    · cases h

/-! ### What moves keep -/

/-- What must have happened before the caller leaves its batch for a reason. -/
def Grounds (pool : Except Failure Pool) (batch : List (Option Record)) (s : System σ) : Leaving → Prop
  | .finished => s.tasks.map Task.record = batch ∧ ∀ t ∈ s.tasks, t.collected = true
  | .failed e => pool = .error e ∨ ∃ t ∈ s.tasks, t.stage = .ended (.error e)
  | .refused => s.shut = true

/-- What is so after any moves. -/
structure Sound (pool : Except Failure Pool) (batch : List (Option Record)) (s : System σ) : Prop where
  submitted : ∀ rest, s.main = .submitting rest → s.tasks.map Task.record ++ rest = batch
  collected : ∀ t ∈ s.tasks, t.collected = true → ∃ i, t.stage = .ended (.ok i)
  left : ∀ why, s.main.left? = some why → s.Grounds pool batch why

variable {pool : Except Failure Pool} {batch : List (Option Record)} {world : Router σ × σ}

theorem sound_start (pool : Except Failure Pool) (batch : List (Option Record)) (world : Router σ × σ) :
    Sound pool batch (start pool batch world) := by
  have hempty : ∀ t ∈ (start pool batch world).tasks, t.collected = true → ∃ i, t.stage = .ended (.ok i) :=
    fun t ht => absurd ht List.not_mem_nil
  cases pool with
  | ok p =>
    refine ⟨fun rest h => ?_, hempty, fun why h => ?_⟩
    · cases h
      rfl
    · cases h
  | error e =>
    refine ⟨fun rest h => ?_, hempty, fun why h => ?_⟩
    · cases h
    · cases h
      exact .inl rfl

theorem Sound.leave (h : Sound pool batch s) (why : Leaving) (hwhy : s.Grounds pool batch why) :
    Sound pool batch { s with main := .closingRouter why } := by
  refine ⟨fun rest h' => ?_, h.collected, fun why' h' => ?_⟩
  · cases h'
  · cases h'
    exact hwhy

theorem records_setTask (h : s.tasks[i]? = some t) {u : Task} (hrecord : u.record = t.record)
    (world : Router σ × σ) : (s.setTask i u world).tasks.map Task.record = s.tasks.map Task.record := by
  obtain ⟨hlt, rfl⟩ := List.getElem?_eq_some_iff.mp h
  have hlength : i < (s.tasks.map Task.record).length := by simpa using hlt
  have hsame : u.record = (s.tasks.map Task.record)[i] := by rw [hrecord, List.getElem_map]
  rw [setTask, List.map_set, hsame, List.set_getElem_self]

theorem mem_setTask_of_ne (h : s.tasks[i]? = some t) {other : Task} (hother : other ∈ s.tasks) (hne : other ≠ t)
    (t' : Task) (world : Router σ × σ) : other ∈ (s.setTask i t' world).tasks := by
  obtain ⟨j, hj, rfl⟩ := List.getElem_of_mem hother
  have hij : i ≠ j := by
    rintro rfl
    exact hne (Option.some.inj ((List.getElem?_eq_getElem hj).symm.trans h))
  apply List.mem_of_getElem?
  rw [setTask, List.getElem?_set_ne hij, List.getElem?_eq_getElem hj]

theorem not_ended_of_isEnded {t : Task} (h : t.stage.isEnded = false) (outcome : Except Failure Invocation) :
    t.stage ≠ .ended outcome := by
  intro hstage
  rw [hstage] at h
  cases h

theorem Sound.setStage (h : Sound pool batch s) (ht : s.tasks[i]? = some t) (hstage : t.stage.isEnded = false)
    (stage : Stage) (world : Router σ × σ) : Sound pool batch (s.setTask i { t with stage } world) := by
  have hrecords := records_setTask (u := { t with stage }) ht rfl world
  have huncollected : t.collected = false := by
    cases hcollected : t.collected with
    | false => rfl
    | true =>
      obtain ⟨invocation, hended⟩ := h.collected t (List.mem_of_getElem? ht) hcollected
      exact absurd hended (not_ended_of_isEnded hstage _)
  refine ⟨fun rest h' => ?_, fun u hu hcollected => ?_, fun why h' => ?_⟩
  · rw [← h.submitted rest h']
    exact congrArg (· ++ rest) hrecords
  · rcases List.mem_or_eq_of_mem_set hu with hu | rfl
    · exact h.collected u hu hcollected
    · exact absurd (huncollected.symm.trans hcollected) Bool.false_ne_true
  · have hgrounds := h.left why h'
    cases why with
    | finished =>
      -- every task was collected by then, this one was not
      have hcollected := hgrounds.2 t (List.mem_of_getElem? ht)
      exact absurd (huncollected.symm.trans hcollected) Bool.false_ne_true
    | failed e =>
      refine hgrounds.imp_right fun hfailed => ?_
      obtain ⟨u, hu, hended⟩ := hfailed
      have hne : u ≠ t := fun heq => not_ended_of_isEnded hstage _ (heq ▸ hended)
      exact ⟨u, mem_setTask_of_ne ht hu hne _ world, hended⟩
    | refused => exact hgrounds

theorem Sound.moved (h : Sound pool batch s) (hmove : Moved f s s') : Sound pool batch s' := by
  cases hmove with
  | @submitted record rest hmain =>
    refine ⟨fun rest' h' => ?_, fun t ht hcollected => ?_, fun why h' => ?_⟩
    · cases h'
      rw [List.map_append, List.append_assoc]
      exact h.submitted _ hmain
    · rcases List.mem_append.mp ht with ht | ht
      · exact h.collected t ht hcollected
      · rw [List.mem_singleton.mp ht] at hcollected
        cases hcollected
    · cases h'
  | refused hmain hshut => exact h.leave .refused hshut
  | @taken i t ht hstage => exact h.setStage ht (by rw [hstage]; rfl) .taken s.world
  | worked ht hnext => exact h.setStage ht (Fetcher.isEnded_of_next hnext) _ _
  | @collected i t invocation hmain ht hstage =>
    have hrecords := records_setTask (u := { t with collected := true }) ht rfl s.world
    refine ⟨fun rest h' => ?_, fun u hu hcollected => ?_, fun why h' => ?_⟩
    · rw [← h.submitted rest h']
      exact congrArg (· ++ rest) hrecords
    · rcases List.mem_or_eq_of_mem_set hu with hu | rfl
      · exact h.collected u hu hcollected
      · exact ⟨invocation, hstage⟩
    · rw [setTask, hmain] at h'
      cases h'
  | @failed t e hmain ht hstage => exact h.leave (.failed e) (.inr ⟨t, ht, hstage⟩)
  | finished hmain hall =>
    have hrecords := h.submitted [] hmain
    rw [List.append_nil] at hrecords
    exact h.leave .finished ⟨hrecords, hall⟩
  | shut =>
    refine ⟨h.submitted, h.collected, fun why h' => ?_⟩
    have hgrounds := h.left why h'
    cases why with
    | refused => rfl
    | _ => exact hgrounds
  | @closed why main world hold hnew _ =>
    refine ⟨fun rest h' => ?_, h.collected, fun why' h' => h.left why' (hold.trans (hnew.symm.trans h'))⟩
    have hmain : main = .submitting rest := h'
    rw [hmain] at hnew
    cases hnew

theorem sound_of_run {moves : List Move} (h : Sound pool batch s) (hrun : s.run f owned size moves = some s') :
    Sound pool batch s' := by
  induction moves generalizing s with
  | nil =>
    cases hrun
    exact h
  | cons move rest ih =>
    obtain ⟨u, hstep, hrest⟩ := Option.bind_eq_some_iff.mp hrun
    exact ih (h.moved (moved_of_step hstep)) hrest

/-- Whether no worker can do anything. -/
def Quiet (f : Fetcher σ) (owned : Bool) (size : Nat) (s : System σ) : Prop :=
  s.step f owned size .take = none ∧ ∀ i, s.step f owned size (.work i) = none

theorem quiet_of_ended (h : ∀ t ∈ s.tasks, ∃ i, t.stage = .ended (.ok i)) : s.Quiet f owned size := by
  constructor
  · have hnone : (s.tasks.findIdx? fun t => t.stage.isQueued) = none := by
      rw [List.findIdx?_eq_none_iff]
      intro t ht
      obtain ⟨invocation, hended⟩ := h t ht
      rw [hended]
      rfl
    rw [step, hnone]
    split <;> rfl
  · intro i
    cases ht : s.tasks[i]? with
    | none => rw [step, ht]; rfl
    | some t =>
      obtain ⟨invocation, hended⟩ := h t (List.mem_of_getElem? ht)
      have hnext : f.next t.record t.stage s.world = none := by
        rw [hended]
        rfl
      simp [step, ht, hnext]

/-- Whatever the workers do between the steps of the caller: once the caller is about to close the router, or
later, every invocation of the batch has ended well and no worker does anything any more, unless the pool could
not be had or took no more tasks, or an invocation that failed was collected. -/
theorem quiet_of_left {moves : List Move}
    (hrun : (start pool batch world).run f owned size moves = some s) :
    (s.main.left? = some .finished → s.tasks.map Task.record = batch ∧
      (∀ t ∈ s.tasks, ∃ i, t.stage = .ended (.ok i)) ∧ s.Quiet f owned size) ∧
    (∀ e, s.main.left? = some (.failed e) → pool = .error e ∨ ∃ t ∈ s.tasks, t.stage = .ended (.error e)) ∧
    (s.main.left? = some .refused → s.shut = true) := by
  have hsound := sound_of_run (sound_start pool batch world) hrun
  refine ⟨fun hleft => ?_, fun e => hsound.left (.failed e), hsound.left .refused⟩
  obtain ⟨hrecords, hcollected⟩ := hsound.left .finished hleft
  have hended : ∀ t ∈ s.tasks, ∃ i, t.stage = .ended (.ok i) := fun t ht => hsound.collected t ht (hcollected t ht)
  exact ⟨hrecords, hended, quiet_of_ended hended⟩

/-! ### Batches with one worker and with two -/

/-- An action that only keeps a note. -/
def note (text : String) : Action (List String) Unit := modify fun notes => notes ++ [text]

/-- A fetcher that keeps notes of what is done to its store. The store holds every document; the row of "bad"
is out of range. -/
def noting : Fetcher (List String) where
  config := { clusterService := "main", idExpression := "$\x7bid\x7d" }
  store := {
    scheme := "notes"
    bucket := "users"
    getJson := fun id => do
      note ("read " ++ id)
      if id = "bad" then Action.fail (.refused (.expiryOutOfRange "4294967296"))
      else return { content := id, cas := .int 1, expiry := .int 0 }
    getBinary := fun _ => Action.fail (.fault .wrongType)
    close := note "close the store" }
  draw := pure "fresh"
  receive _ _ := pure ()
  log _ := pure ()

/-- A router that keeps notes of what its exporters do. -/
def notingRouter : Router (List String) where
  exporters := Channel.all.map fun c =>
    (c, { write := fun _ => note ("write " ++ c.name), flush := pure (), close := note ("close " ++ c.name) })

/-- A batch of records by the ids to read. -/
def startNoting (ids : List String) : System (List String) :=
  start (.ok ⟨0, ids.length, "keyfetch-j"⟩) (ids.map fun id => some { uuid := id, attributes := [("id", id)] })
    (notingRouter, [])

/-- The steps of two workers alternate. -/
def alternating : List Move :=
  [.submit, .submit, .take, .take, .work 1, .work 0, .work 0, .work 1, .work 1, .work 0, .collect 1, .collect 0,
    .leave, .closeRouter, .closeStore]

theorem quiet_of_left_alternating :
    let batch := ["a", "b"].map fun id => some { uuid := id, attributes := [("id", id)] }
    ∃ s, (startNoting ["a", "b"]).run noting true 2 alternating = some s ∧ s.main.left? = some .finished ∧
      s.world.2 = ["read b", "read a", "write original", "write success", "write original", "write success",
        "close success", "close original", "close retry", "close failure", "close the store"] ∧
      s.tasks.map Task.record = batch ∧ (∀ t ∈ s.tasks, ∃ i, t.stage = .ended (.ok i)) ∧
      s.Quiet noting true 2 := by
  intro batch
  have hany : ((startNoting ["a", "b"]).run noting true 2 alternating).any (fun s =>
      s.main.left?.any Leaving.isFinished && s.world.2 == ["read b", "read a", "write original",
        "write success", "write original", "write success", "close success", "close original", "close retry",
        "close failure", "close the store"]) = true := by decide +kernel
  obtain ⟨s, hrun, hs⟩ := (Option.any_eq_true _ _).mp hany
  rw [Bool.and_eq_true, beq_iff_eq] at hs
  obtain ⟨hleft, hnotes⟩ := hs
  have hfinished : s.main.left? = some .finished := by
    obtain ⟨why, hwhy, hfinished⟩ := (Option.any_eq_true _ _).mp hleft
    cases why with
    | finished => exact hwhy
    | _ => cases hfinished
  obtain ⟨hrecords, hended, hquiet⟩ := (quiet_of_left hrun).1 hfinished
  exact ⟨s, hrun, hfinished, hnotes, hrecords, hended, hquiet⟩

/-- The caller collects an invocation that failed while another one waits, and closes; then the worker goes on
with the other one. -/
theorem closed_before_ended :
    ∃ s, (startNoting ["bad", "b"]).run noting true 1
        [.submit, .submit, .take, .work 0, .work 0, .work 0, .collect 0, .closeRouter, .closeStore] = some s ∧
      s.tasks.map (fun t => t.stage.isEnded) = [true, false] ∧
      ∃ s', s.run noting true 1 [.take, .work 1, .work 1, .work 1] = some s' ∧
        s'.world.2 = ["read bad", "close success", "close original", "close retry", "close failure",
          "close the store", "read b", "write original", "write success"] := by
  have hany : ((startNoting ["bad", "b"]).run noting true 1 [.submit, .submit, .take, .work 0, .work 0, .work 0,
      .collect 0, .closeRouter, .closeStore]).any (fun s => s.tasks.map (fun t => t.stage.isEnded) == [true, false] &&
        (s.run noting true 1 [.take, .work 1, .work 1, .work 1]).any fun s' => s'.world.2 == ["read bad",
          "close success", "close original", "close retry", "close failure", "close the store", "read b",
          "write original", "write success"]) = true := by decide +kernel
  obtain ⟨s, hrun, hs⟩ := (Option.any_eq_true _ _).mp hany
  rw [Bool.and_eq_true, beq_iff_eq] at hs
  obtain ⟨s', hrun', hnotes⟩ := (Option.any_eq_true _ _).mp hs.2
  rw [beq_iff_eq] at hnotes
  exact ⟨s, hrun, hs.1, s', hrun', hnotes⟩

/-! ### One invocation after the other -/

theorem run_append {moves moves' : List Move} {u : System σ} (h : s.run f owned size moves = some s')
    (h' : s'.run f owned size moves' = some u) : s.run f owned size (moves ++ moves') = some u := by
  unfold run at h h' ⊢
  rw [List.foldlM_append, h]
  exact h'

theorem run_singleton (h : s.step f owned size move = some s') : s.run f owned size [move] = some s' := by
  unfold run
  rw [List.foldlM_cons, h]
  rfl

theorem exists_run_of_finishes (owned : Bool) (size : Nat) {record : Option Record} {stage : Stage}
    {x y : Router σ × σ} {outcome : Except Failure Invocation} (h : f.Finishes record stage x outcome y)
    (htask : s.tasks[i]? = some { record, stage }) (hworld : s.world = x) :
    ∃ moves, s.run f owned size moves = some (s.setTask i { record, stage := .ended outcome } y) := by
  induction h generalizing s with
  | ended =>
    refine ⟨[], ?_⟩
    obtain ⟨hlt, hget⟩ := List.getElem?_eq_some_iff.mp htask
    rw [← hworld, setTask, ← hget, List.set_getElem_self]
    rfl
  | @step stage stage' x x' y outcome hnext hrest ih =>
    obtain ⟨hlt, -⟩ := List.getElem?_eq_some_iff.mp htask
    have hstep : s.step f owned size (.work i) = some (s.setTask i { record, stage := stage' } x') := by
      simp [step, htask, hworld, hnext]
    have htask' : (s.setTask i { record, stage := stage' } x').tasks[i]? = some { record, stage := stage' } := by
      simp [setTask, hlt]
    obtain ⟨moves, hmoves⟩ := ih htask' rfl
    refine ⟨[.work i] ++ moves, ?_⟩
    rw [run_append (run_singleton hstep) hmoves]
    simp [setTask]

/-- Tasks of which some have ended and were collected and the others wait. -/
structure Between (s : System σ) (done : List Task) (rest : List (Option Record)) : Prop where
  main : s.main = .submitting []
  tasks : s.tasks = done ++ rest.map fun record => { record := record }
  ended : ∀ t ∈ done, t.stage.isEnded = true
  collected : ∀ t ∈ done, t.collected = true

theorem Between.take {done : List Task} {record : Option Record} {rest : List (Option Record)}
    (h : s.Between done (record :: rest)) (hsize : 0 < size) :
    s.step f owned size .take = some (s.setTask done.length { record, stage := .taken } s.world) := by
  have hdone : done.findIdx? (fun t => t.stage.isQueued) = none := by
    rw [List.findIdx?_eq_none_iff]
    intro t ht
    have hended := h.ended t ht
    cases hstage : t.stage with
    | ended => rfl
    | _ =>
      rw [hstage] at hended
      cases hended
  have hbusy : s.busy = 0 := by
    unfold busy
    rw [List.countP_eq_zero, h.tasks]
    intro t ht
    rcases List.mem_append.mp ht with ht | ht
    · simp [h.ended t ht]
    · obtain ⟨record', -, rfl⟩ := List.mem_map.mp ht
      simp [Stage.isQueued]
  have hfind : (s.tasks.findIdx? fun t => t.stage.isQueued) = some done.length := by
    rw [h.tasks, List.findIdx?_append, hdone, List.map_cons, List.findIdx?_cons]
    simp [Stage.isQueued]
  have htask : s.tasks[done.length]? = some { record } := by simp [h.tasks]
  rw [step, hbusy, if_pos hsize, hfind]
  simp [htask]

/-- Workers can go through the tasks one after the other, each collected before the next is taken. -/
theorem exists_run_invokeAll (hsize : 0 < size) {done : List Task} {rest : List (Option Record)}
    (h : s.Between done rest) :
    ∃ moves s', s.run f owned size moves = some s' ∧ s'.world = ((f.invokeAll rest).exec s.world).2 ∧
      match ((f.invokeAll rest).exec s.world).1 with
      | .ok _ => s'.main = .submitting [] ∧ ∀ t ∈ s'.tasks, t.collected = true
      | .error e => s'.main = .closingRouter (.failed e) := by
  induction rest generalizing s done with
  | nil =>
    refine ⟨[], s, rfl, rfl, h.main, fun t ht => ?_⟩
    rw [h.tasks] at ht
    exact h.collected t (by simpa using ht)
  | cons record rest ih =>
    have htask : (s.setTask done.length { record, stage := .taken } s.world).tasks[done.length]? =
        some { record, stage := .taken } := by simp [setTask, h.tasks]
    obtain ⟨works, hwork⟩ := exists_run_of_finishes owned size (f.finishes_invoke record s.world) htask rfl
    have htaken := run_append (run_singleton (h.take hsize)) hwork
    rcases hinvoke : (f.invoke record).exec s.world with ⟨outcome, y⟩
    rw [hinvoke] at htaken
    generalize hu : (s.setTask done.length { record, stage := .taken } s.world).setTask done.length
      { record, stage := .ended outcome } y = u at htaken
    have hmain : u.main = .submitting [] := by rw [← hu]; exact h.main
    have hworld : u.world = y := by rw [← hu]; rfl
    have hended : u.tasks[done.length]? = some { record, stage := .ended outcome } := by
      rw [← hu]
      simp [setTask, h.tasks]
    unfold Fetcher.invokeAll at ih ⊢
    rw [List.mapM_cons]
    cases outcome with
    | error e =>
      rw [Action.exec_bind_error hinvoke]
      have hcollect : u.step f owned size (.collect done.length) =
          some { u with main := .closingRouter (.failed e) } := by
        simp [step, hended, hmain]
      exact ⟨_, _, run_append htaken (run_singleton hcollect), hworld, rfl⟩
    | ok invocation =>
      rw [Action.exec_bind_ok hinvoke]
      have hcollect : u.step f owned size (.collect done.length) = some (u.setTask done.length
          { record, stage := .ended (.ok invocation), collected := true } u.world) := by
        simp [step, hended, hmain]
      have hbetween : (u.setTask done.length { record, stage := .ended (.ok invocation), collected := true }
          u.world).Between (done ++ [{ record, stage := .ended (.ok invocation), collected := true }]) rest := by
        refine ⟨hmain, ?_, ?_, ?_⟩
        · rw [← hu]
          simp [setTask, h.tasks]
        · intro t ht
          rcases List.mem_append.mp ht with ht | ht
          · exact h.ended t ht
          · rw [List.mem_singleton.mp ht]
            rfl
        · intro t ht
          rcases List.mem_append.mp ht with ht | ht
          · exact h.collected t ht
          · rw [List.mem_singleton.mp ht]
      obtain ⟨moves, s', hrun, hends, hresult⟩ := ih hbetween
      have hrest : (u.setTask done.length { record, stage := .ended (.ok invocation), collected := true }
          u.world).world = y := hworld
      rw [hrest] at hends hresult
      rw [Action.exec_bind_pure]
      refine ⟨_, s', run_append (run_append htaken (run_singleton hcollect)) hrun, hends, ?_⟩
      cases hall : ((rest.mapM f.invoke).exec y).1 with
      | ok invocations =>
        rw [hall] at hresult
        exact hresult
      | error e =>
        rw [hall] at hresult
        exact hresult

theorem exists_run_submit (f : Fetcher σ) (owned : Bool) (size : Nat) {rest : List (Option Record)}
    (hmain : s.main = .submitting rest) (hshut : s.shut = false) :
    ∃ moves, s.run f owned size moves =
      some { s with main := .submitting [], tasks := s.tasks ++ rest.map fun record => { record := record } } := by
  induction rest generalizing s with
  | nil =>
    refine ⟨[], ?_⟩
    rw [List.map_nil, List.append_nil, ← hmain]
    rfl
  | cons record rest ih =>
    have hstep : s.step f owned size .submit =
        some { s with main := .submitting rest, tasks := s.tasks ++ [{ record }] } := by simp [step, hmain, hshut]
    obtain ⟨moves, hmoves⟩ := ih (s := { s with main := .submitting rest, tasks := s.tasks ++ [{ record }] }) rfl hshut
    refine ⟨[.submit] ++ moves, ?_⟩
    rw [run_append (run_singleton hstep) hmoves]
    simp

theorem exists_run_close (f : Fetcher σ) (owned : Bool) (size : Nat) {why : Leaving}
    (hmain : s.main = .closingRouter why) :
    ∃ moves s', s.run f owned size moves = some s' ∧ s'.main = .done why ∧
      s'.world = ((do Router.close; if owned then Router.beside f.store.close : Action (Router σ × σ) Unit).exec
        s.world).2 := by
  rcases hclose : Router.close.exec s.world with ⟨r, x⟩
  cases r with
  | error e =>
    have hstep : s.step f owned size .closeRouter = some { s with main := .done why, world := x } := by
      simp [step, hmain, hclose]
    refine ⟨[.closeRouter], _, run_singleton hstep, rfl, ?_⟩
    rw [Action.exec_bind_error hclose]
  | ok u =>
    have hstep : s.step f owned size .closeRouter = some { s with main := .closingStore why, world := x } := by
      simp [step, hmain, hclose]
    have hstore : System.step f owned size { s with main := .closingStore why, world := x } .closeStore =
        some { s with main := .done why, world :=
          ((if owned then Router.beside f.store.close else pure () : Action (Router σ × σ) Unit).exec x).2 } := by
      simp [step]
    refine ⟨[.closeRouter] ++ [.closeStore], _, run_append (run_singleton hstep) (run_singleton hstore), rfl, ?_⟩
    rw [Action.exec_bind_ok hclose]

/-- The runner's own way through a batch is one of the ways that its workers can take. -/
theorem exists_run_runBatch (f : Fetcher σ) (owned : Bool) (hsize : 0 < size) (pool : Except Failure Pool)
    (batch : List (Option Record)) (x : Router σ × σ) :
    ∃ moves s why, (start pool batch x).run f owned size moves = some s ∧ s.main = .done why ∧
      s.world = ((Runner.runBatch f owned pool batch).exec x).2 := by
  unfold Runner.runBatch
  rw [Action.exec_ensuring]
  cases pool with
  | error e =>
    have hmain : (start (.error e) batch x).main = .closingRouter (.failed e) := rfl
    obtain ⟨moves, s, hrun, hdone, hworld⟩ := exists_run_close f owned size hmain
    exact ⟨moves, s, _, hrun, hdone, hworld⟩
  | ok p =>
    have hmain : (start (.ok p) batch x).main = .submitting batch := rfl
    obtain ⟨submits, hsubmit⟩ := exists_run_submit f owned size hmain rfl
    have hbetween : System.Between { start (.ok p) batch x with
        main := .submitting [], tasks := (start (.ok p) batch x).tasks ++
          batch.map fun record => { record := record } } [] batch :=
      ⟨rfl, rfl, fun t ht => absurd ht List.not_mem_nil, fun t ht => absurd ht List.not_mem_nil⟩
    obtain ⟨works, u, hwork, hends, hresult⟩ := exists_run_invokeAll (f := f) hsize hbetween
    have hgone := run_append hsubmit hwork
    -- what was collected tells whether the caller leaves its batch or left it already
    have hleave : ∃ leaves v why, u.run f owned size leaves = some v ∧ v.main = .closingRouter why ∧
        v.world = u.world := by
      dsimp only at hresult
      split at hresult
      · obtain ⟨hmain, hcollected⟩ := hresult
        have hstep : u.step f owned size .leave = some { u with main := .closingRouter .finished } := by
          rw [step, hmain]
          exact if_pos (List.all_eq_true.mpr hcollected)
        exact ⟨_, _, _, run_singleton hstep, rfl, rfl⟩
      · exact ⟨[], u, _, rfl, hresult, rfl⟩
    obtain ⟨leaves, v, why, hleft, hclosing, hsame⟩ := hleave
    obtain ⟨closes, w, hclose, hdone, hworld⟩ := exists_run_close f owned size hclosing
    have hall := run_append (run_append hgone hleft) hclose
    rw [hsame, hends] at hworld
    exact ⟨_, w, why, hall, hdone, hworld⟩

end System

end Workers

end DocFetch
