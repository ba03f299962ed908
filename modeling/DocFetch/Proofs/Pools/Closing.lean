import DocFetch.Proofs.Pools.Callers

/-! # Closing pools that are in use

Until the first call that closes is in its second section, every pool that a job was given takes work. Each
pool that is not shut down is where one of the two sections looks for it, so that none is left when the call
is back.
-/

namespace DocFetch.Pools

namespace System

/-- Whether the first call that closes has entered its second section. -/
def Swept (s : System) : Prop := ∃ c, s.closers.head? = some c ∧ c.stage ≠ .draining

/-! ## What every move preserves -/

/-- The pools that the first call that closes has yet to shut down. -/
def left (s : System) : List Pool := (s.closers.head?.map Closer.todo).getD []

/-- How far the first call that closes has come; `runs` and `jobs` are the numbers that were given. -/
structure Closing (runs : List Nat) (s : System) (c : Closer) : Prop where
  refuses : s.pools.closing = true ∧ s.pools.runPools = []
  draining : c.stage = .draining → s.pools.closed = false ∧ (∀ n ∈ s.pools.shut, n ∈ runs) ∧
    ∀ pool ∈ c.todo, pool.number ∈ runs
  swept : c.stage ≠ .draining → s.pools.closed = true ∧ s.pools.jobPools = [] ∧
    ∀ n ∈ runs, n ∈ s.pools.shut ∧ (c.wait = true → s.work n = 0)
  awaited : c.wait = true → ∀ n ∈ s.pools.shut, c.awaited = some n ∨ s.work n = 0
  returned : c.stage = .returned → c.todo = []

/-- Pools are of runs or of jobs, and every pool that is not shut down can be found: where it was put when it
was created, or among those that the first call that closes took. -/
structure Sound (runs jobs : List Nat) (s : System) : Prop where
  created : ∀ n ∈ runs ++ jobs, n < s.pools.created
  apart : ∀ n ∈ runs, n ∉ jobs
  runPools : ∀ pool ∈ s.pools.runPools, pool.number ∈ runs
  jobPools : ∀ pool ∈ s.pools.jobPools, pool.number ∈ jobs
  found : ∀ n < s.pools.created, n ∈ s.pools.shut ∨
    ∃ pool ∈ s.pools.heldPools ++ s.left, pool.number = n
  closers : s.closers = [] ∧ s.pools.closing = false ∧ s.pools.closed = false ∧ s.pools.shut = [] ∨
    ∃ c rest, s.closers = c :: rest ∧ Closing runs s c ∧ ∀ d ∈ rest, ∀ work p, d.next work p = none

namespace Sound

variable {runs jobs : List Nat} {s : System}

theorem start (size : Int) : Sound [] [] { pools := { defaultSize := size } } :=
  ⟨by simp, by simp, by simp [Pools.runPools], by simp [Pools.jobPools], by simp, .inl ⟨rfl, rfl, rfl, rfl⟩⟩

/-- Of the calls that close only the first has anything to do. -/
theorem first (h : Sound runs jobs s) {c : Closer} {rest : List Closer} (hclosers : s.closers = c :: rest) :
    Closing runs s c ∧ ∀ d ∈ rest, ∀ work p, d.next work p = none := by
  rcases h.closers with ⟨hnone, -⟩ | ⟨d, others, heq, hd, hrest⟩
  · rw [hclosers] at hnone
    cases hnone
  · rw [hclosers] at heq
    cases heq
    exact ⟨hd, hrest⟩

theorem eq_zero_of_next (h : Sound runs jobs s) {i : Nat} {c : Closer} {r : Closer × Pools}
    (hi : s.closers[i]? = some c) (hnext : c.next s.work s.pools = some r) :
    ∃ rest, s.closers = c :: rest ∧ i = 0 := by
  cases hclosers : s.closers with
  | nil =>
    rw [hclosers] at hi
    cases hi
  | cons d rest =>
    rw [hclosers] at hi
    cases i with
    | zero =>
      cases hi
      exact ⟨rest, rfl, rfl⟩
    | succ i =>
      rw [(h.first hclosers).2 c (List.mem_of_getElem? hi)] at hnext
      cases hnext

/-! ### Requests -/

section

variable {r : Except Failure Pool} {p' : Pools}

theorem created_of_granted (h : Sound runs jobs s) (hr : Granted heldPools s.pools r p') :
    ∀ n ∈ runs ++ jobs ++ given r, n < p'.created := by
  have hmem (n : Nat) (hn : n ∈ runs ++ jobs) : n < p'.created := Nat.lt_of_lt_of_le (h.created n hn) hr.created_le
  intro n hn
  rcases List.mem_append.mp hn with hold | hgiven
  · exact hmem n hold
  · rcases hr.mem_given hgiven with ⟨pool, hpool, rfl⟩ | ⟨rfl, hnew⟩
    · refine hmem _ ?_
      rcases List.mem_append.mp hpool with hrun | hjob
      · exact List.mem_append_left _ (h.runPools pool hrun)
      · exact List.mem_append_right _ (h.jobPools pool hjob)
    · omega

theorem found_of_granted (h : Sound runs jobs s) (hr : Granted heldPools s.pools r p') :
    ∀ n < p'.created, n ∈ p'.shut ∨ ∃ pool ∈ p'.heldPools ++ s.left, pool.number = n := by
  have hold (n : Nat) (hn : n < s.pools.created) :
      n ∈ p'.shut ∨ ∃ pool ∈ p'.heldPools ++ s.left, pool.number = n := by
    rw [hr.shut]
    refine (h.found n hn).imp_right ?_
    rintro ⟨pool, hpool, hnumber⟩
    refine ⟨pool, ?_, hnumber⟩
    rcases List.mem_append.mp hpool with hheld | hleft
    · exact List.mem_append_left _ ((hr.pools pool).mpr (.inl hheld))
    · exact List.mem_append_right _ hleft
  intro n hn
  rcases hr.created with ⟨hsame, -⟩ | ⟨hnew, pool, hpool, hnumber⟩
  · exact hold n (hsame ▸ hn)
  · rcases Nat.lt_succ_iff_lt_or_eq.mp (hnew ▸ hn) with hlt | rfl
    · exact hold n hlt
    · exact .inr ⟨pool, List.mem_append_left _ ((hr.pools pool).mpr (.inr hpool)), hnumber⟩

theorem trigger (h : Sound runs jobs s) (hanswer : RunAnswer s.pools r p') :
    Sound (runs ++ given r) jobs { s with pools := p' } := by
  cases hclosing : s.pools.closing with
  | true =>
    obtain ⟨rfl, rfl⟩ := hanswer.of_closing hclosing
    rwa [given, Except.toOption, Option.map_none, Option.toList_none, List.append_nil]
  | false =>
    obtain ⟨hr, hjobs⟩ := hanswer.granted hclosing
    have hheld := hr.of_runPools hjobs
    refine ⟨fun n hn => ?_, fun n hn => ?_, fun pool hpool => ?_, fun pool hpool => ?_,
      h.found_of_granted hheld, .inl ?_⟩
    · refine h.created_of_granted hheld n ?_
      simp only [List.mem_append] at hn ⊢
      exact or_right_comm.mp hn
    · rcases List.mem_append.mp hn with hold | hgiven
      · exact h.apart n hold
      · rcases hr.mem_given hgiven with ⟨pool, hpool, rfl⟩ | ⟨rfl, -⟩
        · exact h.apart _ (h.runPools pool hpool)
        · exact fun hjob => Nat.lt_irrefl _ (h.created _ (List.mem_append_right _ hjob))
    · rcases (hr.pools pool).mp hpool with hold | hnew
      · exact List.mem_append_left _ (h.runPools pool hold)
      · exact List.mem_append_right _ (by simp [given, hnew, Except.toOption])
    · exact h.jobPools pool (hjobs ▸ hpool)
    · rcases h.closers with ⟨hnone, -, hclosed, hshut⟩ | ⟨c, rest, -, hc, -⟩
      · exact ⟨hnone, hr.closing.trans hclosing, hr.closed.trans hclosed, hr.shut.trans hshut⟩
      · rw [hc.refuses.1] at hclosing
        cases hclosing

theorem job (h : Sound runs jobs s) {name : String} {size : Option Int} (hanswer : JobAnswer s.pools name size r p') :
    Sound runs (jobs ++ given r) { s with pools := p' } := by
  cases hclosed : s.pools.closed with
  | true =>
    obtain ⟨rfl, rfl⟩ := hanswer.of_closed hclosed
    rwa [given, Except.toOption, Option.map_none, Option.toList_none, List.append_nil]
  | false =>
    obtain ⟨hr, hruns⟩ := hanswer.granted hclosed
    have hheld := hr.of_jobPools hruns
    refine ⟨fun n hn => ?_, fun n hn => ?_, fun pool hpool => ?_, fun pool hpool => ?_,
      h.found_of_granted hheld, ?_⟩
    · exact h.created_of_granted hheld n (by rwa [List.append_assoc])
    · refine fun hmem => (List.mem_append.mp hmem).elim (h.apart n hn) fun hgiven => ?_
      rcases hr.mem_given hgiven with ⟨pool, hpool, rfl⟩ | ⟨rfl, -⟩
      · exact h.apart _ hn (h.jobPools pool hpool)
      · exact Nat.lt_irrefl _ (h.created _ (List.mem_append_left _ hn))
    · exact h.runPools pool (hruns ▸ hpool)
    · rcases (hr.pools pool).mp hpool with hold | hnew
      · exact List.mem_append_left _ (h.jobPools pool hold)
      · exact List.mem_append_right _ (by simp [given, hnew, Except.toOption])
    · rcases h.closers with ⟨hnone, hclosing, -, hshut⟩ | ⟨c, rest, hclosers, hc, hrest⟩
      · exact .inl ⟨hnone, hr.closing.trans hclosing, hr.closed.trans hclosed, hr.shut.trans hshut⟩
      · refine .inr ⟨c, rest, hclosers, ⟨⟨hr.closing.trans hc.refuses.1, hruns.trans hc.refuses.2⟩, ?_, ?_, ?_,
          hc.returned⟩, hrest⟩
        · intro hstage
          exact ⟨hr.closed.trans hclosed, hr.shut ▸ (hc.draining hstage).2.1, (hc.draining hstage).2.2⟩
        · intro hstage
          rw [(hc.swept hstage).1] at hclosed
          cases hclosed
        · exact fun hwait n hn => hc.awaited hwait n (hr.shut ▸ hn)

end

/-! ### Work -/

theorem withWork (h : Sound runs jobs s) {work : Nat → Nat}
    (hwork : ∀ n ∈ s.pools.shut, s.work n = 0 → work n = 0) : Sound runs jobs { s with work } := by
  refine ⟨h.created, h.apart, h.runPools, h.jobPools, h.found, h.closers.imp_right ?_⟩
  rintro ⟨c, rest, hclosers, hc, hrest⟩
  refine ⟨c, rest, hclosers, ⟨hc.refuses, hc.draining, fun hstage => ?_, fun hwait n hn => ?_, hc.returned⟩, hrest⟩
  · obtain ⟨hclosed, hjobs, hruns⟩ := hc.swept hstage
    exact ⟨hclosed, hjobs, fun n hn => (hruns n hn).imp_right fun hdone hwait => hwork n (hruns n hn).1 (hdone hwait)⟩
  · exact (hc.awaited hwait n hn).imp_right (hwork n hn)

theorem submit (h : Sound runs jobs s) {n : Nat} (hn : s.pools.accepts n = true) :
    Sound runs jobs { s with work := Function.update s.work n (s.work n + 1) } := by
  refine h.withWork fun m hm hdone => ?_
  have hne : m ≠ n := by
    rintro rfl
    simp [accepts, hm] at hn
  rwa [Function.update_of_ne hne]

theorem finish (h : Sound runs jobs s) (n : Nat) :
    Sound runs jobs { s with work := Function.update s.work n (s.work n - 1) } := by
  refine h.withWork fun m hm hdone => ?_
  by_cases hmn : m = n
  · rw [hmn] at hdone ⊢
    rw [Function.update_self, hdone]
  · rwa [Function.update_of_ne hmn]

/-! ### Closing -/

theorem enter (h : Sound runs jobs s) (wait : Bool) : Sound runs jobs (s.enter wait) := by
  unfold System.enter
  rcases h.closers with ⟨hnone, hclosing, hclosed, hshut⟩ | ⟨c, rest, hclosers, hc, hrest⟩
  · rw [if_neg (by rw [hclosing]; exact Bool.false_ne_true), hnone]
    refine ⟨h.created, h.apart, fun pool hpool => absurd hpool List.not_mem_nil, h.jobPools, fun n hn => ?_,
      .inr ⟨_, [], rfl, ⟨⟨rfl, rfl⟩, fun _ => ⟨hclosed, ?_, h.runPools⟩, fun hstage => absurd rfl hstage, ?_,
        (fun hstage => by cases hstage)⟩, fun d hd => absurd hd List.not_mem_nil⟩⟩
    · refine (h.found n hn).imp_right ?_
      rintro ⟨pool, hpool, hnumber⟩
      simp only [left, hnone, List.head?_nil, Option.map_none, Option.getD_none, List.append_nil] at hpool
      exact ⟨pool, List.mem_append.mpr (List.mem_append.mp hpool).symm, hnumber⟩
    · exact fun n hn => absurd (hshut ▸ hn) List.not_mem_nil
    · exact fun _ n hn => absurd (hshut ▸ hn) List.not_mem_nil
  · rw [if_pos hc.refuses.1]
    refine ⟨h.created, h.apart, h.runPools, h.jobPools, fun n hn => ?_,
      .inr ⟨c, rest ++ [{ wait, stage := .returned }], by rw [hclosers]; rfl,
        ⟨hc.refuses, hc.draining, hc.swept, hc.awaited, hc.returned⟩, fun d hd => ?_⟩⟩
    · have hfound := h.found n hn
      simp only [left, hclosers] at hfound ⊢
      exact hfound
    · rcases List.mem_append.mp hd with hold | hnew
      · exact hrest d hold
      · cases List.mem_singleton.mp hnew
        exact fun _ _ => rfl

theorem awaited (h : Sound runs jobs s) {c : Closer} {rest : List Closer} (hclosers : s.closers = c :: rest)
    {n : Nat} (hn : c.awaited = some n) (hdone : c.wait = true → s.work n = 0) :
    Sound runs jobs { s with closers := { c with awaited := none } :: rest } := by
  obtain ⟨hc, hrest⟩ := h.first hclosers
  refine ⟨h.created, h.apart, h.runPools, h.jobPools, fun m hm => ?_,
    .inr ⟨_, rest, rfl, ⟨hc.refuses, hc.draining, hc.swept, fun hwait m hm => ?_, hc.returned⟩, hrest⟩⟩
  · have hfound := h.found m hm
    rwa [left, hclosers] at hfound
  · refine .inr ((hc.awaited hwait m hm).elim (fun heq => ?_) id)
    rw [hn] at heq
    cases heq
    exact hdone hwait

theorem shutDown (h : Sound runs jobs s) {c : Closer} {rest : List Closer} (hclosers : s.closers = c :: rest)
    (hnone : c.awaited = none) {pool : Pool} {todo : List Pool} (htodo : c.todo = pool :: todo) :
    Sound runs jobs { s with
      pools := s.pools.shutDown [pool], closers := { c with todo, awaited := some pool.number } :: rest } := by
  obtain ⟨hc, hrest⟩ := h.first hclosers
  have hmem : pool ∈ c.todo := htodo ▸ List.mem_cons_self
  refine ⟨h.created, h.apart, h.runPools, h.jobPools, fun n hn => ?_,
    .inr ⟨_, rest, rfl, ⟨hc.refuses, fun hstage => ?_, fun hstage => ?_, fun hwait n hn => ?_, fun hstage => ?_⟩,
      hrest⟩⟩
  · rcases h.found n hn with hshut | ⟨other, hother, rfl⟩
    · exact .inl (List.mem_append_left _ hshut)
    rw [left, hclosers] at hother
    rcases List.mem_append.mp hother with hheld | hleft
    · exact .inr ⟨other, List.mem_append_left _ hheld, rfl⟩
    change other ∈ c.todo at hleft
    rw [htodo] at hleft
    rcases List.mem_cons.mp hleft with rfl | htail
    · exact .inl (List.mem_append_right _ (List.mem_singleton_self _))
    · exact .inr ⟨other, List.mem_append_right _ htail, rfl⟩
  · obtain ⟨hclosed, hshut, hruns⟩ := hc.draining hstage
    refine ⟨hclosed, fun n hn => ?_, fun other hother => hruns other (htodo ▸ List.mem_cons_of_mem _ hother)⟩
    rcases List.mem_append.mp hn with hold | hnew
    · exact hshut n hold
    · cases List.mem_singleton.mp hnew
      exact hruns pool hmem
  · obtain ⟨hclosed, hjobs, hruns⟩ := hc.swept hstage
    exact ⟨hclosed, hjobs, fun n hn => (hruns n hn).imp_left (List.mem_append_left _)⟩
  · rcases List.mem_append.mp hn with hold | hnew
    · refine .inr ((hc.awaited hwait n hold).resolve_left fun heq => ?_)
      rw [hnone] at heq
      cases heq
    · cases List.mem_singleton.mp hnew
      exact .inl rfl
  · rw [hc.returned hstage] at hmem
    cases hmem

/-- The second section. By now every pool for runs is shut down: no other place is left for it. -/
theorem refuseJobs (h : Sound runs jobs s) {c : Closer} {rest : List Closer} (hclosers : s.closers = c :: rest)
    (hnone : c.awaited = none) (htodo : c.todo = []) :
    Sound runs jobs { s with
      pools := s.pools.refuseJobs.2
      closers := { c with stage := .sweeping, todo := s.pools.refuseJobs.1 } :: rest } := by
  obtain ⟨hc, hrest⟩ := h.first hclosers
  have hheld (pool : Pool) (hpool : pool ∈ s.pools.heldPools ++ s.left) : pool ∈ s.pools.jobPools := by
    rw [left, hclosers, heldPools, hc.refuses.2] at hpool
    change pool ∈ [] ++ s.pools.jobPools ++ c.todo at hpool
    rwa [htodo, List.nil_append, List.append_nil] at hpool
  refine ⟨h.created, h.apart, h.runPools, fun pool hpool => absurd hpool List.not_mem_nil, fun n hn => ?_,
    .inr ⟨_, rest, rfl, ⟨hc.refuses, (fun hstage => by cases hstage), fun _ => ⟨rfl, rfl, fun n hn => ?_⟩,
      hc.awaited, (fun hstage => by cases hstage)⟩, hrest⟩⟩
  · refine (h.found n hn).imp_right ?_
    rintro ⟨pool, hpool, hnumber⟩
    exact ⟨pool, List.mem_append_right _ (hheld pool hpool), hnumber⟩
  · have hshut : n ∈ s.pools.shut := by
      refine (h.found n (h.created n (List.mem_append_left _ hn))).resolve_right ?_
      rintro ⟨pool, hpool, rfl⟩
      exact h.apart _ hn (h.jobPools pool (hheld pool hpool))
    refine ⟨hshut, fun hwait => (hc.awaited hwait n hshut).resolve_left fun heq => ?_⟩
    rw [hnone] at heq
    cases heq

theorem returned (h : Sound runs jobs s) {c : Closer} {rest : List Closer} (hclosers : s.closers = c :: rest)
    (htodo : c.todo = []) (hstage : c.stage = .sweeping) :
    Sound runs jobs { s with closers := { c with stage := .returned } :: rest } := by
  obtain ⟨hc, hrest⟩ := h.first hclosers
  refine ⟨h.created, h.apart, h.runPools, h.jobPools, fun n hn => ?_,
    .inr ⟨_, rest, rfl, ⟨hc.refuses, (fun hstage => by cases hstage),
      fun _ => hc.swept (by rw [hstage]; decide), hc.awaited, fun _ => htodo⟩, hrest⟩⟩
  have hfound := h.found n hn
  rwa [left, hclosers] at hfound

theorem advance (h : Sound runs jobs s) {i : Nat} {c c' : Closer} {p' : Pools} (hi : s.closers[i]? = some c)
    (hnext : c.next s.work s.pools = some (c', p')) :
    Sound runs jobs { s with pools := p', closers := s.closers.set i c' } := by
  obtain ⟨rest, hclosers, rfl⟩ := h.eq_zero_of_next hi hnext
  rw [hclosers, List.set_cons_zero]
  cases Closer.next_cases hnext with
  | awaited hn hdone => exact h.awaited hclosers hn hdone
  | shut hnone htodo => exact h.shutDown hclosers hnone htodo
  | sweep hnone htodo _ => exact h.refuseJobs hclosers hnone htodo
  | back _ htodo hstage => exact h.returned hclosers htodo hstage

theorem step (h : Sound runs jobs s) {m : Move} {a : Answer} {s' : System} (hstep : s.step m = some (a, s')) :
    Sound (runs ++ History.runs [(m, a)]) (jobs ++ History.jobs [(m, a)]) s' := by
  cases step_cases hstep with
  | @trigger r p' hr =>
    have hruns : History.runs [(.trigger, some r)] = given r := by cases r <;> rfl
    rw [hruns]
    exact (List.append_nil jobs).symm ▸ h.trigger hr
  | @job name size r p' hr =>
    have hjobs : History.jobs [(.job name size, some r)] = given r := by cases r <;> rfl
    rw [hjobs]
    exact (List.append_nil runs).symm ▸ h.job hr
  | submit hn => exact (List.append_nil runs).symm ▸ (List.append_nil jobs).symm ▸ h.submit hn
  | finish n => exact (List.append_nil runs).symm ▸ (List.append_nil jobs).symm ▸ h.finish n
  | close wait => exact (List.append_nil runs).symm ▸ (List.append_nil jobs).symm ▸ h.enter wait
  | advance hi hnext => exact (List.append_nil runs).symm ▸ (List.append_nil jobs).symm ▸ h.advance hi hnext

theorem run (h : Sound runs jobs s) {moves : List Move} {history : History} {s' : System}
    (hrun : s.run moves = some (history, s')) : Sound (runs ++ history.runs) (jobs ++ history.jobs) s' := by
  induction moves generalizing runs jobs s history with
  | nil =>
    cases hrun
    exact (List.append_nil runs).symm ▸ (List.append_nil jobs).symm ▸ h
  | cons m rest ih =>
    obtain ⟨a, t, tail, hstep, htail, rfl⟩ := run_cons hrun
    have hrest := ih (h.step hstep) htail
    rwa [List.append_assoc, List.append_assoc, ← History.runs_append, ← History.jobs_append] at hrest

/-! ## Runs -/

theorem closed_of_not_swept (h : Sound runs jobs s) (hswept : ¬ s.Swept) :
    s.pools.closed = false ∧ ∀ n ∈ s.pools.shut, n ∈ runs := by
  rcases h.closers with ⟨-, -, hclosed, hshut⟩ | ⟨c, rest, hclosers, hc, -⟩
  · exact ⟨hclosed, fun n hn => absurd (hshut ▸ hn) List.not_mem_nil⟩
  · have hstage : c.stage = .draining := by_contra fun hstage => hswept ⟨c, by rw [hclosers]; rfl, hstage⟩
    exact ⟨(hc.draining hstage).1, (hc.draining hstage).2.1⟩

theorem accepts (h : Sound runs jobs s) (hswept : ¬ s.Swept) {n : Nat} (hn : n ∈ jobs) :
    s.pools.accepts n = true := by
  have hcreated : n < s.pools.created := h.created n (List.mem_append_right _ hn)
  have hshut : n ∉ s.pools.shut := fun hmem => h.apart n ((h.closed_of_not_swept hswept).2 n hmem) hn
  simp [Pools.accepts, hcreated, hshut]

theorem jobPool_accepts (h : Sound runs jobs s) (hswept : ¬ s.Swept) (name : String) {size : Option Int}
    (hsize : 0 < s.pools.sizeOr size) :
    ∃ pool p, s.pools.jobPool name size = (.ok pool, p) ∧ p.accepts pool.number = true := by
  obtain ⟨pool, hpool⟩ := (jobAnswer s.pools name size).exists_ok (h.closed_of_not_swept hswept).1 hsize
  have hsound := h.job (jobAnswer s.pools name size)
  refine ⟨pool, _, Prod.ext hpool rfl, hsound.accepts hswept (List.mem_append_right _ ?_)⟩
  rw [hpool]
  exact List.mem_singleton_self _

theorem closing_of_swept (h : Sound runs jobs s) (hswept : s.Swept) :
    s.pools.closing = true ∧ s.pools.closed = true ∧ ∀ n ∈ runs, n ∈ s.pools.shut := by
  obtain ⟨c, hc, hstage⟩ := hswept
  obtain ⟨rest, hclosers⟩ := List.head?_eq_some_iff.mp hc
  obtain ⟨hclosing, -⟩ := h.first hclosers
  obtain ⟨hclosed, -, hruns⟩ := hclosing.swept hstage
  exact ⟨hclosing.refuses.1, hclosed, fun n hn => (hruns n hn).1⟩

theorem swept_step (h : Sound runs jobs s) (hswept : s.Swept) {m : Move} {a : Answer} {s' : System}
    (hstep : s.step m = some (a, s')) : s'.Swept ∧ s'.pools.created = s.pools.created := by
  obtain ⟨hclosing, hclosed, -⟩ := h.closing_of_swept hswept
  cases step_cases hstep with
  | trigger hr =>
    obtain ⟨-, rfl⟩ := hr.of_closing hclosing
    exact ⟨hswept, rfl⟩
  | job hr =>
    obtain ⟨-, rfl⟩ := hr.of_closed hclosed
    exact ⟨hswept, rfl⟩
  | submit hn => exact ⟨hswept, rfl⟩
  | finish n => exact ⟨hswept, rfl⟩
  | close wait =>
    obtain ⟨c, hc, hstage⟩ := hswept
    rw [System.enter, if_pos hclosing]
    exact ⟨⟨c, by rw [List.head?_append, hc]; rfl, hstage⟩, rfl⟩
  | advance hi hnext =>
    obtain ⟨rest, hclosers, rfl⟩ := h.eq_zero_of_next hi hnext
    obtain ⟨d, hd, hstage⟩ := hswept
    rw [hclosers] at hd
    cases hd
    obtain ⟨hstage', hcreated⟩ := (Closer.next_cases hnext).swept hstage
    exact ⟨⟨_, by rw [hclosers]; rfl, hstage'⟩, hcreated⟩

/-- From the second section on no pool is created. -/
theorem swept_run (h : Sound runs jobs s) (hswept : s.Swept) {moves : List Move} {history : History}
    {s' : System} (hrun : s.run moves = some (history, s')) : s'.Swept ∧ s'.pools.created = s.pools.created := by
  induction moves generalizing runs jobs s history with
  | nil =>
    cases hrun
    exact ⟨hswept, rfl⟩
  | cons m rest ih =>
    obtain ⟨a, t, tail, hstep, htail, rfl⟩ := run_cons hrun
    obtain ⟨hswept', hsame⟩ := h.swept_step hswept hstep
    obtain ⟨hend, hrest⟩ := ih (h.step hstep) hswept' htail
    exact ⟨hend, hrest.trans hsame⟩

/-- Once the first call that closes is back, every pool is shut down. -/
theorem shut_of_returned (h : Sound runs jobs s) {c : Closer} {rest : List Closer} (hclosers : s.closers = c :: rest)
    (hstage : c.stage = .returned) : ∀ n < s.pools.created, n ∈ s.pools.shut := by
  obtain ⟨hc, -⟩ := h.first hclosers
  refine fun n hn => (h.found n hn).resolve_right ?_
  rintro ⟨pool, hpool, -⟩
  rw [left, hclosers, heldPools, hc.refuses.2, (hc.swept (by rw [hstage]; decide)).2.1] at hpool
  change pool ∈ c.todo at hpool
  rw [hc.returned hstage] at hpool
  cases hpool

end Sound

/-- Whether a request fails with an error of a kind. -/
def FailsWith (kind : String) (r : Except Failure Pool) : Prop := ∃ f, r = .error f ∧ f.kind = kind

/-- However the calls interleave: until the first call that closes is in its second section, jobs are given
pools, and those that they were given take work; it stays in front of that section while a run that it awaits is
not done. From that section on the pool for runs is shut down, no pool is created and every request fails. When
the call is back, every pool is shut down. -/
theorem closing_of_run {size : Int} {moves : List Move} {history : History} {s : System}
    (hrun : run { pools := { defaultSize := size } } moves = some (history, s)) :
    (¬ s.Swept → (∀ n ∈ history.jobs, s.pools.accepts n = true) ∧
      ∀ name size, 0 < s.pools.sizeOr size →
        ∃ pool p, s.pools.jobPool name size = (.ok pool, p) ∧ p.accepts pool.number = true) ∧
    (s.Swept → (∀ n ∈ history.runs, n ∈ s.pools.shut) ∧
      FailsWith "RuntimeError" s.pools.triggerPool.1 ∧
      (∀ name size, FailsWith "RuntimeError" (s.pools.jobPool name size).1) ∧
      ∀ more history' s', s.run more = some (history', s') → s'.Swept ∧ s'.pools.created = s.pools.created) ∧
    ∀ c, s.closers.head? = some c →
      (c.wait = true → (∃ n ∈ history.runs, s.work n ≠ 0) → c.stage = .draining) ∧
      (c.stage = .returned → ∀ n < s.pools.created, n ∈ s.pools.shut) := by
  have h : Sound history.runs history.jobs s := (Sound.start size).run hrun
  refine ⟨fun hswept => ⟨fun n => h.accepts hswept, fun name size => h.jobPool_accepts hswept name⟩,
    fun hswept => ?_, fun c hc => ?_⟩
  · obtain ⟨hclosing, hclosed, hshut⟩ := h.closing_of_swept hswept
    refine ⟨hshut, ?_, fun name size => ?_, fun more history' s' => h.swept_run hswept⟩
    · rw [triggerPool_of_closing hclosing]
      exact ⟨_, rfl, rfl⟩
    · rw [jobPool_of_closed hclosed]
      exact ⟨_, rfl, rfl⟩
  · obtain ⟨rest, hclosers⟩ := List.head?_eq_some_iff.mp hc
    obtain ⟨hclosing, -⟩ := h.first hclosers
    refine ⟨?_, h.shut_of_returned hclosers⟩
    rintro hwait ⟨n, hn, hwork⟩
    exact by_contra fun hstage => hwork (((hclosing.swept hstage).2.2 n hn).2 hwait)

/-- A job gets a pool of another size while a run that uses the pools keeps the call that closes waiting. -/
theorem closing_of_run_replaced :
    let start : System := { pools := { defaultSize := 8 } }
    let before : List Move := [.trigger, .submit 0, .job "a" (some 1), .submit 1, .close true, .advance 0,
      .job "a" (some 2), .close true]
    let after : List Move := [.finish 0, .advance 0, .advance 0, .job "b" none, .finish 1, .advance 0, .advance 0,
      .advance 0, .advance 0, .advance 0]
    ∃ history s history' s', start.run before = some (history, s) ∧
      start.run (before ++ after) = some (history', s') ∧
      history.runs = [0] ∧ history.jobs = [1, 2] ∧ 0 < s.pools.sizeOr none ∧
      ¬ s.Swept ∧ s.pools.accepts 1 = true ∧ s.pools.accepts 2 = true ∧
      (∃ pool p, s.pools.jobPool "b" none = (.ok pool, p) ∧ p.accepts pool.number = true) ∧
      s'.Swept ∧ FailsWith "RuntimeError" s'.pools.triggerPool.1 ∧
      FailsWith "RuntimeError" (s'.pools.jobPool "a" none).1 ∧
      s'.pools.created = 3 ∧ ∀ n < s'.pools.created, n ∈ s'.pools.shut := by
  intro start before after
  have hbefore : (start.run before).map (fun r => (r.1.runs, r.1.jobs, r.2.pools.defaultSize,
      r.2.closers.head?.map Closer.stage)) = some ([0], [1, 2], 8, some .draining) := by decide +kernel
  have hafter : (start.run (before ++ after)).map (fun r => (r.2.pools.created,
      r.2.closers.head?.map Closer.stage)) = some (3, some .returned) := by decide +kernel
  obtain ⟨⟨history, s⟩, hrun, hseen⟩ := Option.map_eq_some_iff.mp hbefore
  obtain ⟨⟨history', s'⟩, hrun', hseen'⟩ := Option.map_eq_some_iff.mp hafter
  simp only [Prod.mk.injEq] at hseen hseen'
  obtain ⟨hruns, hjobs, hdefault, hdraining⟩ := hseen
  obtain ⟨hcreated, hreturned⟩ := hseen'
  have hsize : 0 < s.pools.sizeOr none := by
    rw [sizeOr, hdefault]
    decide
  have hopen : ¬ s.Swept := by
    rintro ⟨c, hc, hstage⟩
    rw [hc] at hdraining
    exact hstage (Option.some.inj hdraining)
  obtain ⟨c, hc, hstage⟩ := Option.map_eq_some_iff.mp hreturned
  have hswept : s'.Swept := ⟨c, hc, by rw [hstage]; decide⟩
  obtain ⟨hbetween, -, -⟩ := closing_of_run hrun
  obtain ⟨haccepts, hgiven⟩ := hbetween hopen
  rw [hjobs] at haccepts
  obtain ⟨-, hend, hcloser⟩ := closing_of_run hrun'
  obtain ⟨-, htrigger, hjob, -⟩ := hend hswept
  exact ⟨history, s, history', s', hrun, hrun', hruns, hjobs, hsize, hopen, haccepts 1 (by decide),
    haccepts 2 (by decide), hgiven "b" none hsize, hswept, htrigger, hjob "a" none, hcreated, (hcloser c hc).2 hstage⟩

end System

end DocFetch.Pools
