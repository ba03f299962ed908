import DocFetch.Proofs.Job.Endings
import DocFetch.Proofs.Job.Workers

/-! # What a batch closes while its workers go on

A batch is watched at work: its router and its store keep what they are asked for. Whatever its workers do between the
steps of the caller, records are handed over first and then what the run opened is closed, once, as in a run that goes
through its batch in order. Only a caller that left its batch before all of it had ended well can be followed by workers
that hand over more.
-/

namespace DocFetch

variable {σ : Type}

/-! ## Workers that are watched -/

namespace Fetcher

variable {f : Fetcher σ} {record : Option Record} {stage stage' : Stage} {x y : Router σ × σ}

theorem exec_read_watched (f : Fetcher σ) (id : String) (s : σ) (before : Asked Part) :
    (f.watched.read id).exec (s, before) = (((f.read id).exec s).1, ((f.read id).exec s).2, before) := by
  have hwatched : f.watched.read id = (f.read id).zoom Prod.fst fun s t => (t, s.2) := by
    rw [← read_zoom]
    rfl
  rw [hwatched, Action.exec_zoom]

theorem exec_conclude_watched (f : Fetcher σ) (record : Option Record) (id : String) (result : FetchResult) (s : σ)
    (before : Asked Part) :
    (f.watched.conclude record id result).exec (s, before) =
      (((f.conclude record id result).exec s).1, ((f.conclude record id result).exec s).2, before) := by
  have hwatched : f.watched.conclude record id result =
      (f.conclude record id result).zoom Prod.fst fun s t => (t, s.2) := by
    rw [← conclude_zoom lens_asked]
    rfl
  rw [hwatched, Action.exec_zoom]

theorem exec_abort_watched (f : Fetcher σ) (record : Option Record) (e : Failure) (s : σ) (before : Asked Part) :
    (f.watched.abort record e).exec (s, before) =
      (((f.abort record e).exec s).1, ((f.abort record e).exec s).2, before) := by
  have hwatched : f.watched.abort record e = (f.abort record e).zoom Prod.fst fun s t => (t, s.2) := by
    rw [← abort_zoom lens_asked]
    rfl
  rw [hwatched, Action.exec_zoom]

theorem next_watched_beside {r : Router σ} {s : σ} (h : f.next record stage (r, s) = some (stage', y))
    (hstage : ∀ v, stage ≠ .attended v) (before : Asked Part) :
    y.1 = r ∧ f.watched.next record stage (Router.markedAt .router (r, s) before) =
      some (stage', Router.markedAt .router y before) := by
  rw [Router.markedAt]
  cases stage with
  | queued => cases h
  | ended outcome => cases h
  | attended v => exact absurd rfl (hstage v)
  | taken =>
    have hid : resolveDocumentId f.watched.config f.watched.resolver record =
        resolveDocumentId f.config f.resolver record := rfl
    unfold next at h ⊢
    rw [hid]
    cases hresolve : resolveDocumentId f.config f.resolver record with
    | error e =>
      rw [hresolve] at h
      cases h
      exact ⟨rfl, rfl⟩
    | ok id =>
      rw [hresolve] at h
      dsimp only at h ⊢
      rw [exec_read_watched]
      rcases hread : (f.read id).exec s with ⟨answer, t⟩
      rw [hread] at h
      cases h
      exact ⟨rfl, rfl⟩
  | answered id answer =>
    unfold next at h ⊢
    dsimp only at h ⊢
    cases hresult : FetchResult.ofRead answer with
    | error e =>
      rw [hresult] at h
      cases h
      exact ⟨rfl, rfl⟩
    | ok result =>
      rw [hresult] at h
      dsimp only at h ⊢
      rw [exec_conclude_watched]
      rcases hconclude : (f.conclude record id result).exec s with ⟨ended, t⟩
      rw [hconclude] at h
      cases ended <;> cases h <;> exact ⟨rfl, rfl⟩
  | failed e =>
    unfold next at h ⊢
    dsimp only at h ⊢
    rw [exec_abort_watched]
    rcases habort : (f.abort record e).exec s with ⟨outcome, t⟩
    rw [habort] at h
    cases h
    exact ⟨rfl, rfl⟩

/-- A worker that is watched goes on as the worker does, and asks for nothing but to hand over. -/
theorem next_watched (h : f.next record stage x = some (stage', y)) (before : Asked Part) :
    ∃ handed written, OnlyWrites written ∧ y.1 = x.1.counted handed ∧
      f.watched.next record stage (Router.markedAt .router x before) =
        some (stage', Router.markedAt .router y (before ++ written.relabel .router)) := by
  by_cases hstage : ∃ v, stage = .attended v
  · obtain ⟨v, rfl⟩ := hstage
    have hroute : HandsOver Part.router (Router.route (σ := σ) v.transfers) (Router.route v.transfers) :=
      .route v.transfers
    obtain ⟨handed, written, hwrites, hcounted, hexec⟩ := hroute x before
    cases h
    refine ⟨handed, written, hwrites, hcounted, ?_⟩
    unfold next
    dsimp only
    rw [hexec]
    rfl
  · obtain ⟨hrouter, hnext⟩ := next_watched_beside h (fun v hv => hstage ⟨v, hv⟩) before
    refine ⟨[], [], nofun, by rw [hrouter, Router.counted_nil], ?_⟩
    rw [hnext, Asked.relabel_nil, List.append_nil]

end Fetcher

/-! ## What a batch at work asks for -/

/-- Whether something other than the writing of a record is asked for. -/
def Part.closes : Part → Bool
  | .router (.write _ _) => false
  | _ => true

/-- What was asked for beside writing. -/
def Asked.closing (asked : Asked Part) : Asked Part := asked.filter fun a => a.1.closes

namespace Asked

theorem closing_append (asked more : Asked Part) : (asked ++ more).closing = asked.closing ++ more.closing :=
  List.filter_append ..

theorem closing_of_writes {written : Asked Operation} (h : OnlyWrites written) :
    (written.relabel Part.router).closing = [] := by
  rw [closing, List.filter_eq_nil_iff]
  intro a ha
  obtain ⟨b, hb, rfl⟩ := List.mem_map.mp ha
  obtain ⟨t, ht⟩ := h b hb
  rw [Prod.map_fst, ht]
  exact Bool.false_ne_true

theorem closing_of_ran {r : Router σ} {ended : Except Failure Unit} {asked : Asked Operation}
    (h : Ran r.plan ended asked) : (asked.relabel Part.router).closing = asked.relabel .router := by
  rw [closing, List.filter_eq_self]
  intro a ha
  obtain ⟨b, hb, rfl⟩ := List.mem_map.mp ha
  rcases List.mem_append.mp (h.mem hb) with hexporter | hrelease
  · cases hop : b.1 with
    | write c record => exact absurd (hop ▸ hexporter) (Operation.write_notMem_endings c record _)
    | _ =>
      rw [Prod.map_fst, hop]
      rfl
  · obtain ⟨n, -, hn⟩ := List.mem_map.mp hrelease
    rw [Prod.map_fst, ← hn]
    rfl

end Asked

namespace Workers

namespace System

variable {f : Fetcher σ} {owned : Bool} {size : Nat} {s s' : System σ} {move : Move} {pool : Except Failure Pool}
  {batch : List (Option Record)} {plan : List Operation} {asked : Asked Part}

/-- The system that also keeps what was asked for. -/
def markedAs (s : System σ) (asked : Asked Part) : System (σ × Asked Part) where
  main := s.main
  tasks := s.tasks
  shut := s.shut
  world := Router.markedAt .router s.world asked

/-- What closing has asked for so far: the router is closed, and if that went well the store, where it is the run's
own. -/
inductive Closings (plan : List Operation) (owned : Bool) : Main → Asked Part → Prop
  | none {main : Main} : main.isOpen = true → Closings plan owned main []
  | router {why : Leaving} : Closings plan owned (.closingStore why) ((Asked.done plan).relabel .router)
  | all {why : Leaving} {ended : Except Failure Unit} {last : Asked Part} : Runner.Disposal plan owned ended last →
      Closings plan owned (.done why) last

/-- What is so of what was asked for. A worker may write at any time, but none does any more once the caller saw
that every invocation had ended well. -/
structure Told (plan : List Operation) (owned : Bool) (s : System σ) (asked : Asked Part) : Prop where
  planned : s.main.isOpen = true → s.world.1.plan = plan
  closings : Closings plan owned s.main asked.closing
  before : s.main.isOpen = true ∨ s.main.left? = some .finished →
    ∃ written, OnlyWrites written ∧ asked = written.relabel .router ++ asked.closing

theorem Closings.eq_nil {main : Main} {last : Asked Part} (h : Closings plan owned main last)
    (hopen : main.isOpen = true) : last = [] := by
  cases h with
  | none => rfl
  | router => cases hopen
  | all => cases hopen

theorem Closings.eq_done {why : Leaving} {last : Asked Part} (h : Closings plan owned (.closingStore why) last) :
    last = (Asked.done plan).relabel .router := by
  cases h with
  | none hopen => cases hopen
  | router => rfl

theorem Closings.disposal {why : Leaving} {last : Asked Part} (h : Closings plan owned (.done why) last) :
    ∃ ended, Runner.Disposal plan owned ended last := by
  cases h with
  | none hopen => cases hopen
  | all hdisposal => exact ⟨_, hdisposal⟩

theorem Told.idle (h : Told plan owned s asked) (hworld : s'.world = s.world)
    (hmain : s'.main = s.main ∨ s.main.isOpen = true ∧ s'.main.isOpen = true) : Told plan owned s' asked := by
  rcases hmain with hmain | ⟨hopen, hopen'⟩
  · exact ⟨by rw [hmain, hworld]; exact h.planned, hmain ▸ h.closings, hmain ▸ h.before⟩
  · refine ⟨fun _ => hworld ▸ h.planned hopen, ?_, fun _ => h.before (.inl hopen)⟩
    rw [h.closings.eq_nil hopen]
    exact .none hopen'

theorem Told.worked (h : Told plan owned s asked) (hunfinished : s.main.left? ≠ some .finished)
    {world : Router σ × σ} {handed : List Transfer} (hcounted : world.1 = s.world.1.counted handed)
    {written : Asked Operation} (hwrites : OnlyWrites written) (i : Nat) (t : Task) :
    Told plan owned (s.setTask i t world) (asked ++ written.relabel .router) := by
  have hclosing : (asked ++ written.relabel Part.router).closing = asked.closing := by
    rw [Asked.closing_append, Asked.closing_of_writes hwrites, List.append_nil]
  refine ⟨fun hopen => ?_, hclosing ▸ h.closings, fun hbefore => ?_⟩
  · rw [setTask, hcounted]
    exact h.planned hopen
  · have hopen := hbefore.resolve_right hunfinished
    have hnone := h.closings.eq_nil hopen
    obtain ⟨earlier, hearlier, hasked⟩ := h.before (.inl hopen)
    rw [hnone, List.append_nil] at hasked
    refine ⟨earlier ++ written, hearlier.append hwrites, ?_⟩
    rw [hclosing, hnone, List.append_nil, Asked.relabel_append, hasked]

theorem Told.closed (h : Told plan owned s asked) {last : Asked Part} (hlast : last.closing = last)
    (hclosings : Closings plan owned s'.main (asked.closing ++ last)) (hopen : s'.main.isOpen = false)
    (hleft : s'.main.left? = s.main.left?) : Told plan owned s' (asked ++ last) := by
  have hclosing : (asked ++ last).closing = asked.closing ++ last := by rw [Asked.closing_append, hlast]
  refine ⟨fun hopen' => ?_, hclosing ▸ hclosings, fun hbefore => ?_⟩
  · rw [hopen] at hopen'
    cases hopen'
  · rw [hopen, hleft] at hbefore
    obtain ⟨written, hwrites, hasked⟩ := h.before (hbefore.imp_left nofun)
    refine ⟨written, hwrites, ?_⟩
    rw [hclosing, ← List.append_assoc, ← hasked]

theorem Sound.unfinished (h : Sound pool batch s) {i : Nat} {t : Task} (ht : s.tasks[i]? = some t)
    (hended : t.stage.isEnded = false) : s.main.left? ≠ some .finished := by
  intro hleft
  have hmem := List.mem_of_getElem? ht
  obtain ⟨invocation, hstage⟩ := h.collected t hmem ((h.left .finished hleft).2 t hmem)
  exact not_ended_of_isEnded hended _ hstage

/-! ### What a move asks for -/

theorem step_markedAs_idle (hstep : s.step f owned size move = some s') (hwork : ∀ i, move ≠ .work i)
    (hrouter : move ≠ .closeRouter) (hstore : move ≠ .closeStore) (asked : Asked Part) :
    (s.markedAs asked).step f.watched owned size move = some (s'.markedAs asked) ∧ s'.world = s.world ∧
      (s'.main = s.main ∨ s.main.isOpen = true ∧ s'.main.isOpen = true) := by
  cases move with
  | submit =>
    rw [step] at hstep
    split at hstep
    · rename_i record rest hmain
      have hopen : s.main.isOpen = true := by rw [hmain]; rfl
      split at hstep
      · rename_i hshut
        cases hstep
        exact ⟨by simp [step, markedAs, hmain, hshut], rfl, .inr ⟨hopen, rfl⟩⟩
      · rename_i hshut
        cases hstep
        exact ⟨by simp [step, markedAs, hmain, hshut], rfl, .inr ⟨hopen, rfl⟩⟩
    · cases hstep
  | take =>
    rw [step] at hstep
    split at hstep
    · rename_i hlt
      obtain ⟨i, hi, hstep⟩ := Option.bind_eq_some_iff.mp hstep
      obtain ⟨t, ht, hstep⟩ := Option.bind_eq_some_iff.mp hstep
      cases hstep
      have hbusy : (s.markedAs asked).busy < size := hlt
      refine ⟨?_, rfl, .inl rfl⟩
      rw [step, if_pos hbusy]
      simp [markedAs, setTask, hi, ht]
    · cases hstep
  | work i => exact absurd rfl (hwork i)
  | collect i =>
    obtain ⟨t, ht, hstep⟩ := Option.bind_eq_some_iff.mp hstep
    split at hstep
    · rename_i hmain hstage hcollected
      cases hstep
      exact ⟨by simp [step, markedAs, setTask, ht, hmain, hstage, hcollected], rfl, .inl rfl⟩
    · rename_i hmain hstage hcollected
      cases hstep
      exact ⟨by simp [step, markedAs, ht, hmain, hstage, hcollected], rfl, .inr ⟨by rw [hmain]; rfl, rfl⟩⟩
    · cases hstep
  | leave =>
    rw [step] at hstep
    split at hstep
    · rename_i hmain
      split at hstep
      · rename_i hall
        cases hstep
        refine ⟨?_, rfl, .inr ⟨by rw [hmain]; rfl, rfl⟩⟩
        simp only [step, markedAs, hmain]
        exact if_pos hall
      · cases hstep
    · cases hstep
  | shutDown =>
    cases hstep
    exact ⟨rfl, rfl, .inl rfl⟩
  | closeRouter => exact absurd rfl hrouter
  | closeStore => exact absurd rfl hstore

theorem step_markedAs_work {i : Nat} (hstep : s.step f owned size (.work i) = some s') (hsound : Sound pool batch s)
    (h : Told plan owned s asked) :
    ∃ asked', (s.markedAs asked).step f.watched owned size (.work i) = some (s'.markedAs asked') ∧
      Told plan owned s' asked' := by
  obtain ⟨t, ht, hstep⟩ := Option.bind_eq_some_iff.mp hstep
  obtain ⟨⟨stage, world⟩, hnext, hstep⟩ := Option.bind_eq_some_iff.mp hstep
  cases hstep
  obtain ⟨handed, written, hwrites, hcounted, hwatched⟩ := Fetcher.next_watched hnext asked
  have hunfinished := hsound.unfinished ht (Fetcher.isEnded_of_next hnext)
  refine ⟨_, ?_, h.worked hunfinished hcounted hwrites i _⟩
  simp [step, markedAs, setTask, ht, hwatched]

theorem step_markedAs_closeRouter (hstep : s.step f owned size .closeRouter = some s')
    (h : Told plan owned s asked) :
    ∃ asked', (s.markedAs asked).step f.watched owned size .closeRouter = some (s'.markedAs asked') ∧
      Told plan owned s' asked' := by
  rw [step] at hstep
  split at hstep
  · rename_i why hmain
    have hopen : s.main.isOpen = true := by rw [hmain]; rfl
    obtain ⟨last, hclosed, hexec⟩ := Router.exec_close_marked .router s.world asked
    have hran := hclosed.ran
    rcases hclose : Router.close.exec s.world with ⟨ended, z⟩
    rw [hclose] at hstep hran hexec
    have hlast := Asked.closing_of_ran hran
    rw [h.planned hopen] at hran
    have hnone := h.closings.eq_nil hopen
    cases ended with
    | error e =>
      cases hstep
      refine ⟨_, by simp [step, markedAs, hmain, hexec], h.closed hlast ?_ rfl (by rw [hmain]; rfl)⟩
      rw [hnone]
      exact .all (.broken hran)
    | ok _ =>
      cases hstep
      refine ⟨_, by simp [step, markedAs, hmain, hexec], h.closed hlast ?_ rfl (by rw [hmain]; rfl)⟩
      rw [hnone, hran.eq_done]
      exact .router
  · cases hstep

theorem step_markedAs_closeStore (hstep : s.step f owned size .closeStore = some s') (h : Told plan owned s asked) :
    ∃ asked', (s.markedAs asked).step f.watched owned size .closeStore = some (s'.markedAs asked') ∧
      Told plan owned s' asked' := by
  rw [step] at hstep
  split at hstep
  · rename_i why hmain
    cases hstep
    have hrouter := h.closings
    rw [hmain] at hrouter
    replace hrouter := hrouter.eq_done
    cases owned with
    | false =>
      refine ⟨asked ++ [], ?_, h.closed rfl ?_ rfl (by rw [hmain]; rfl)⟩
      · simp only [step, markedAs, hmain, List.append_nil]
        rfl
      · rw [hrouter, List.append_nil]
        exact .all (.kept rfl)
    | true =>
      refine ⟨asked ++ [(.store, ((Router.beside f.store.close).exec s.world).1)], ?_,
        h.closed rfl ?_ rfl (by rw [hmain]; rfl)⟩
      · simp only [step, markedAs, hmain]
        rfl
      · rw [hrouter]
        exact .all (.closed rfl)
  · cases hstep

theorem step_markedAs (hstep : s.step f owned size move = some s') (hsound : Sound pool batch s)
    (h : Told plan owned s asked) :
    ∃ asked', (s.markedAs asked).step f.watched owned size move = some (s'.markedAs asked') ∧
      Told plan owned s' asked' := by
  cases move with
  | work i => exact step_markedAs_work hstep hsound h
  | closeRouter => exact step_markedAs_closeRouter hstep h
  | closeStore => exact step_markedAs_closeStore hstep h
  | _ =>
    obtain ⟨hmarked, hworld, hmain⟩ := step_markedAs_idle hstep nofun nofun nofun asked
    exact ⟨asked, hmarked, h.idle hworld hmain⟩

theorem run_markedAs {moves : List Move} (hrun : s.run f owned size moves = some s') (hsound : Sound pool batch s)
    (h : Told plan owned s asked) :
    ∃ asked', (s.markedAs asked).run f.watched owned size moves = some (s'.markedAs asked') ∧
      Told plan owned s' asked' := by
  induction moves generalizing s asked with
  | nil =>
    cases hrun
    exact ⟨asked, rfl, h⟩
  | cons move rest ih =>
    obtain ⟨u, hstep, hrest⟩ := Option.bind_eq_some_iff.mp hrun
    obtain ⟨asked', hmarked, htold⟩ := step_markedAs hstep hsound h
    obtain ⟨last, hlast, hend⟩ := ih hrest (hsound.moved (moved_of_step hstep)) htold
    exact ⟨last, Option.bind_eq_some_iff.mpr ⟨_, hmarked, hlast⟩, hend⟩

theorem told_start (owned : Bool) (pool : Except Failure Pool) (batch : List (Option Record)) (x : Router σ × σ) :
    Told x.1.plan owned (start pool batch x) [] := by
  have hopen : (start pool batch x).main.isOpen = true := by cases pool <;> rfl
  exact ⟨fun _ => rfl, .none hopen, fun _ => ⟨[], nofun, rfl⟩⟩

/-- However the steps of the workers and of the caller alternate: what is closed is closed in order and once, as in a
run that goes through its batch in order. If the caller saw every invocation end well before it closed anything, all
records were handed over before; only after another way out may workers hand over more. -/
theorem told_of_run {moves : List Move} {x : Router σ × σ}
    (hrun : (start pool batch x).run f owned size moves = some s) :
    ∃ asked, (start pool batch (Router.markedAt .router x [])).run f.watched owned size moves =
        some (s.markedAs asked) ∧
      Told x.1.plan owned s asked := by
  have hstart : (start pool batch x).markedAs [] = start pool batch (Router.markedAt .router x []) := rfl
  rw [← hstart]
  exact run_markedAs hrun (sound_start pool batch x) (told_start owned pool batch x)

/-- A batch whose invocations all ended well asks for what a run that goes through its batch in order asks for:
everything is written before the router is closed. -/
theorem written_before_closed {moves : List Move} {x : Router σ × σ}
    (hrun : (start pool batch x).run f owned size moves = some s) (hdone : s.main = .done .finished) :
    ∃ written ended last, OnlyWrites written ∧ Runner.Disposal x.1.plan owned ended last ∧
      (start pool batch (Router.markedAt .router x [])).run f.watched owned size moves =
        some (s.markedAs (written.relabel .router ++ last)) := by
  obtain ⟨asked, hmarked, htold⟩ := told_of_run hrun
  obtain ⟨written, hwrites, hasked⟩ := htold.before (.inr (by rw [hdone]; rfl))
  have hclosings := htold.closings
  rw [hdone] at hclosings
  obtain ⟨ended, hdisposal⟩ := hclosings.disposal
  rw [hasked] at hmarked
  exact ⟨written, ended, _, hwrites, hdisposal, hmarked⟩

end System

end Workers

end DocFetch
