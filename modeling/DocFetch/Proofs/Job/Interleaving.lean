import DocFetch.Proofs.Job.Orders
import DocFetch.Proofs.Job.Workers
import Mathlib.Data.List.Perm.Basic

/-! # Batches by any number of workers

Workers read, report and hand records over in whatever order they come to it. What was reported is at any time what
the tasks settled, and what the router has counted and its exporters hold is what they handed over, until the first
of them fails or the router is closed. A batch that ends well therefore counts, exports and reports what it does
when it is gone through in order.
-/

namespace DocFetch

variable {σ : Type}

/-! ## One step of a worker -/

namespace Stage

/-- Whether an invocation is to end with a failure. -/
def isDoomed : Stage → Bool
  | failed e => !e.isKindOf .configuration
  | ended (.error _) => true
  | _ => false

/-- What an invocation has settled and not handed over. -/
def pending? : Stage → Option Visit
  | attended v => some v
  | _ => none

end Stage

namespace Fetcher

variable {f : Fetcher σ} {gives : Answering} {holds : List Visit → Routed → σ → Prop} {d : List Visit} {l : Routed}
  {record : Option Record} {stage stage' : Stage} {r : Router σ} {s t : σ} {x y : Router σ × σ}

theorem isDoomed_of_next (hnext : f.next record stage x = some (stage', y)) (h : stage.isDoomed = true) :
    stage'.isDoomed = true := by
  cases stage with
  | failed e =>
    unfold next at hnext
    dsimp only at hnext
    rcases habort : (f.abort record e).exec x.2 with ⟨outcome, t⟩
    rw [habort] at hnext
    cases hnext
    cases outcome with
    | error e' => rfl
    | ok v =>
      obtain ⟨he, -, -⟩ := abort_eq_ok_iff.mp habort
      simp [Stage.isDoomed, he] at h
  | ended outcome => cases hnext
  | _ => cases h

/-- What is known of an invocation by how far it is. -/
inductive Reached (f : Fetcher σ) (gives : Answering) (record : Option Record) : Stage → Prop
  | queued : Reached f gives record .queued
  | taken : Reached f gives record .taken
  | answered {id : String} {answer : Except Failure (Document ByteArray)} :
      resolveDocumentId f.config f.resolver record = .ok id → gives id answer →
      Reached f gives record (.answered id answer)
  | failed {e : Failure} : f.Settles gives (.aborted record e) → Reached f gives record (.failed e)
  | attended {v : Visit} : v.record = record → f.Settles gives v → Reached f gives record (.attended v)
  | ended {outcome : Except Failure Invocation} : Reached f gives record (.ended outcome)

/-- What a step of a worker comes to: it goes on, or it settles something, hands it over, or does both at once where
there is nothing to hand over. Otherwise its invocation is to fail. -/
inductive Worked (f : Fetcher σ) (gives : Answering) (holds : List Visit → Routed → σ → Prop) (d : List Visit)
    (l : Routed) (record : Option Record) (r : Router σ) : Stage → Stage → Router σ × σ → Prop
  | further {stage stage' : Stage} {t : σ} : stage.pending? = none → stage'.pending? = none →
      stage'.isEnded = false → f.Reached gives record stage' → holds d l t →
      Worked f gives holds d l record r stage stage' (r, t)
  | settled {stage : Stage} {v : Visit} {t : σ} : stage.pending? = none → v.record = record → f.Settles gives v →
      holds (d ++ [v]) l t → Worked f gives holds d l record r stage (.attended v) (r, t)
  | handed {v : Visit} {t : σ} : v.record = record → f.Settles gives v → holds d (l.add v.transfers) t →
      Worked f gives holds d l record r (.attended v) (.ended (.ok v.invocation)) (r.counted v.transfers, t)
  | aborted {stage : Stage} {v : Visit} {t : σ} : stage.pending? = none → v.record = record → f.Settles gives v →
      v.transfers = [] → holds (d ++ [v]) l t →
      Worked f gives holds d l record r stage (.ended (.ok v.invocation)) (r, t)
  | doomed {stage stage' : Stage} {y : Router σ × σ} : stage'.isDoomed = true →
      Worked f gives holds d l record r stage stage' y

theorem Worked.failed {e : Failure} (hstage : stage.pending? = none)
    (h : e.isKindOf .configuration = true → f.Settles gives (.aborted record e) ∧ holds d l t) :
    f.Worked gives holds d l record r stage (.failed e) (r, t) := by
  cases he : e.isKindOf .configuration with
  | true => exact .further hstage rfl rfl (.failed (h he).1) (h he).2
  | false => exact .doomed (by simp [Stage.isDoomed, he])

theorem worked_of_answered {id : String} {answer : Except Failure (Document ByteArray)} (h : f.Upholds gives holds)
    (hl : holds d l s) (hid : resolveDocumentId f.config f.resolver record = .ok id) (hgives : gives id answer)
    (hnext : f.next record (.answered id answer) (r, s) = some (stage', y)) :
    f.Worked gives holds d l record r (.answered id answer) stage' y := by
  unfold next at hnext
  dsimp only at hnext
  cases hresult : FetchResult.ofRead answer with
  | error e =>
    rw [hresult] at hnext
    cases hnext
    exact .failed rfl fun he => ⟨settles_of_failure hid hgives hresult he, hl⟩
  | ok result =>
    rcases hconclude : (f.conclude record id result).exec s with ⟨ended, t⟩
    rw [hresult] at hnext
    dsimp only at hnext
    rw [hconclude] at hnext
    cases ended with
    | error e =>
      cases hnext
      refine .failed rfl fun he => ?_
      obtain ⟨hfault, hheld⟩ := h.unconcluded hl hconclude he
      exact ⟨settles_of_given hid hfault he, hheld⟩
    | ok transfers =>
      cases hnext
      exact .settled rfl rfl (settles_of_concluded hid hgives hresult hconclude) (h.concluded hl hconclude)

theorem worked_of_next (h : f.Upholds gives holds) (hkeeps : ∀ d, Router.Keeps r.exporters (holds d))
    (hl : holds d l s) (hstage : f.Reached gives record stage)
    (hnext : f.next record stage (r, s) = some (stage', y)) :
    f.Worked gives holds d l record r stage stage' y := by
  cases hstage with
  | queued => cases hnext
  | ended => cases hnext
  | taken =>
    unfold next at hnext
    cases hid : resolveDocumentId f.config f.resolver record with
    | error e =>
      rw [hid] at hnext
      cases hnext
      exact .failed rfl fun he => ⟨settles_of_fault hid he, hl⟩
    | ok id =>
      rcases hread : (f.read id).exec s with ⟨answer, t⟩
      rw [hid] at hnext
      dsimp only at hnext
      rw [hread] at hnext
      cases hnext
      obtain ⟨hgives, hheld⟩ := h.read hl hread
      exact .further rfl rfl rfl (.answered hid hgives) hheld
  | answered hid hgives => exact worked_of_answered h hl hid hgives hnext
  | @failed e hv =>
    unfold next at hnext
    dsimp only at hnext
    rcases habort : (f.abort record e).exec s with ⟨outcome, t⟩
    rw [habort] at hnext
    cases hnext
    cases outcome with
    | error e' => exact .doomed rfl
    | ok v =>
      obtain ⟨-, rfl, rfl⟩ := abort_eq_ok_iff.mp habort
      exact .aborted rfl rfl hv rfl (h.aborted record e hl)
  | @attended v hrecord hv =>
    unfold next at hnext
    dsimp only at hnext
    rcases hroute : (Router.route v.transfers).exec (r, s) with ⟨outcome, x⟩
    rw [hroute] at hnext
    cases hnext
    cases outcome with
    | error e => exact .doomed rfl
    | ok _ =>
      obtain ⟨hcounted, hheld⟩ := Router.route_eq_ok (hkeeps d) hl hroute
      have hworked := Worked.handed (r := r) hrecord hv hheld
      rwa [← hcounted] at hworked

end Fetcher

/-! ## Summaries -/

namespace Summary

variable {batch : List (Option Record)} {is js : List Invocation} {counts : Channel → Nat} {vs vs' : List Visit}

/-- A summary that counts each invocation of a batch once by its end, and for a channel a record for each of those
that end in its way. Without a record of its own an invocation has one for the channel of new records alone. -/
structure Conserved (summary : Summary) (batch : List (Option Record)) : Prop where
  total : summary.statuses .found + summary.statuses .notFound + summary.statuses .storeError +
    summary.statuses .aborted = batch.length
  success : summary.channels .success = summary.statuses .found
  records : (∀ record ∈ batch, record.isSome = true) → ∀ ch, summary.channels ch = summary.statuses ch.status
  timer : (∀ record ∈ batch, record = none) → ∀ ch, ch ≠ .success → summary.channels ch = 0

theorem ofInvocations_perm (h : is.Perm js) : ofInvocations is counts = ofInvocations js counts := by
  unfold ofInvocations
  congr 1
  funext status
  exact h.countP_eq _

theorem conserved_ofInvocations (hrecords : (vs.map Visit.record).Perm batch)
    (hcounts : ∀ ch, counts ch = vs.countP (·.sends ch)) :
    (ofInvocations (vs.map Visit.invocation) counts).Conserved batch where
  total := by
    rw [sum_statuses, ← hrecords.length_eq, List.length_map]
  success := by
    rw [statuses_ofInvocations]
    exact (hcounts _).trans (countP_sends fun _ _ => .inr rfl)
  records h ch := by
    rw [statuses_ofInvocations]
    exact (hcounts _).trans (countP_sends fun v hv => .inl (h _ (hrecords.subset (List.mem_map_of_mem hv))))
  timer h ch hch :=
    (hcounts _).trans (countP_sends_of_timer (fun v hv => h _ (hrecords.subset (List.mem_map_of_mem hv))) hch)

theorem ofInvocations_undrawn (h : (vs.map Visit.undrawn).Perm (vs'.map Visit.undrawn)) (r : Router σ) :
    ofInvocations (vs.map Visit.invocation) (r.counted (vs.flatMap Visit.transfers)).counts =
      ofInvocations (vs'.map Visit.invocation) (r.counted (vs'.flatMap Visit.transfers)).counts := by
  have hinvocations := h.map Visit.invocation
  rw [List.map_map, List.map_map] at hinvocations
  have hcounts : (r.counted (vs.flatMap Visit.transfers)).counts =
      (r.counted (vs'.flatMap Visit.transfers)).counts := by
    funext ch
    have hlength := (perm_recordsFor h ch).length_eq
    rw [List.length_map, List.length_map] at hlength
    exact congrArg (r.counts ch + ·) hlength
  rw [hcounts]
  exact ofInvocations_perm hinvocations

end Summary

/-! ## A batch at work -/

namespace Workers

namespace Task

/-- The record of a task that ended well, with how its invocation ended. -/
def settled? (t : Task) : Option (Option Record × Invocation) :=
  match t.stage with
  | .ended (.ok invocation) => some (t.record, invocation)
  | _ => none

def pending? (t : Task) : Option Visit := t.stage.pending?

theorem settled?_eq_none {t : Task} (h : t.stage.isEnded = false) : t.settled? = none := by
  cases hstage : t.stage with
  | ended outcome =>
    rw [hstage] at h
    cases h
  | _ => simp [settled?, hstage]

end Task

theorem perm_filterMap_set {α β : Type} {g : α → Option β} {l : List α} {i : Nat} {a b : α} {c d : List β}
    (ha : l[i]? = some a) (h : ((g a).toList ++ c).Perm (d ++ (g b).toList)) :
    (l.filterMap g ++ c).Perm (d ++ (l.set i b).filterMap g) := by
  obtain ⟨hlt, rfl⟩ := List.getElem?_eq_some_iff.mp ha
  have hset (e : α) : ((l.set i e).filterMap g).Perm ((g e).toList ++ (l.eraseIdx i).filterMap g) := by
    have hperm := (List.set_perm_cons_eraseIdx hlt e).filterMap g
    cases hg : g e with
    | none => rwa [List.filterMap_cons_none hg] at hperm
    | some _ => rwa [List.filterMap_cons_some hg] at hperm
  have hbefore := hset l[i]
  rw [List.set_getElem_self] at hbefore
  generalize (l.eraseIdx i).filterMap g = others at hset hbefore
  calc
    List.Perm (l.filterMap g ++ c) (((g l[i]).toList ++ others) ++ c) := hbefore.append_right c
    List.Perm _ (((g l[i]).toList ++ c) ++ others) := by
      rw [List.append_assoc, List.append_assoc]
      exact List.perm_append_comm.append_left _
    List.Perm _ (d ++ ((g b).toList ++ others)) := by
      rw [← List.append_assoc]
      exact h.append_right others
    List.Perm _ (d ++ (l.set i b).filterMap g) := (hset b).symm.append_left d

namespace System

variable {f : Fetcher σ} {gives : Answering} {holds : List Visit → Routed → σ → Prop} {owned : Bool} {size : Nat}
  {r : Router σ} {s s' : System σ} {w : σ} {i : Nat} {t t' : Task} {d vs : List Visit} {moves : List Move}

/-- How the invocations that ended well did. -/
def invocations (s : System σ) : List Invocation := (s.tasks.filterMap Task.settled?).map Prod.snd

/-- What the caller counts. -/
def summary (s : System σ) : Summary := .ofInvocations s.invocations s.world.1.counts

/-- A batch of which no invocation fails and whose router is open. -/
structure Unbroken (s : System σ) : Prop where
  isOpen : s.main.isOpen = true
  undoomed : ∀ t ∈ s.tasks, t.stage.isDoomed = false

theorem Unbroken.of_setTask (h : Unbroken (s.setTask i t' (r, w))) (ht : s.tasks[i]? = some t)
    (hstage : t.stage.isDoomed = true → t'.stage.isDoomed = true) : Unbroken s := by
  refine ⟨h.isOpen, fun u hu => ?_⟩
  cases hdoomed : u.stage.isDoomed with
  | false => rfl
  | true =>
    by_cases hne : u = t
    · have hmem := List.mem_set (List.getElem?_eq_some_iff.mp ht).1 t'
      exact absurd ((hstage (hne ▸ hdoomed)).symm.trans (h.undoomed t' hmem)) nofun
    · exact absurd (hdoomed.symm.trans (h.undoomed u (mem_setTask_of_ne ht hu hne _ _))) nofun

theorem Unbroken.of_moved (h : Unbroken s') (hmove : Moved f s s') : Unbroken s := by
  cases hmove with
  | submitted hmain => exact ⟨by rw [hmain]; rfl, fun t ht => h.undoomed t (List.mem_append_left _ ht)⟩
  | refused hmain _ => exact ⟨by rw [hmain]; rfl, h.undoomed⟩
  | taken ht hstage => exact h.of_setTask ht (by simp [hstage, Stage.isDoomed])
  | worked ht hnext => exact h.of_setTask ht (Fetcher.isDoomed_of_next hnext)
  | collected hmain ht hstage => exact h.of_setTask ht id
  | failed hmain _ _ => exact ⟨by rw [hmain]; rfl, h.undoomed⟩
  | finished hmain _ => exact ⟨by rw [hmain]; rfl, h.undoomed⟩
  | shut => exact ⟨h.isOpen, h.undoomed⟩
  | closed _ _ hclosed => exact absurd (hclosed.symm.trans h.isOpen) Bool.false_ne_true

theorem Unbroken.of_run (h : Unbroken s') (hrun : s.run f owned size moves = some s') : Unbroken s := by
  induction moves generalizing s with
  | nil =>
    cases hrun
    exact h
  | cons move rest ih =>
    obtain ⟨u, hstep, hrest⟩ := Option.bind_eq_some_iff.mp hrun
    exact (ih hrest).of_moved (moved_of_step hstep)

/-- What invocations settled, in the order in which they did, and what of it was handed over, in the order in which
it was: the tasks have ended with it, the router has counted it, and it is what is known to hold. -/
structure Tallied (f : Fetcher σ) (gives : Answering) (holds : List Visit → Routed → σ → Prop) (r : Router σ)
    (s : System σ) (d vs : List Visit) : Prop where
  reached : ∀ t ∈ s.tasks, f.Reached gives t.record t.stage
  settles : ∀ v ∈ vs, f.Settles gives v
  pending : d.Perm (vs ++ s.tasks.filterMap Task.pending?)
  ended : (s.tasks.filterMap Task.settled?).Perm (vs.map fun v => (v.record, v.invocation))
  counted : s.world.1 = r.counted (vs.flatMap Visit.transfers)
  held : holds d (recordsFor (vs.flatMap Visit.transfers)) s.world.2

/-- A task goes on: `ds` are the visits that this settles, and `us` those that it hands over. -/
theorem Tallied.setTask {router : Router σ} (h : Tallied f gives holds r s d vs) (ds us : List Visit)
    (ht : s.tasks[i]? = some t) (hreached : f.Reached gives t'.record t'.stage) (hus : ∀ v ∈ us, f.Settles gives v)
    (hpending : (t.pending?.toList ++ ds).Perm (us ++ t'.pending?.toList))
    (hended : t'.settled?.toList = t.settled?.toList ++ us.map fun v => (v.record, v.invocation))
    (hrouter : router = s.world.1.counted (us.flatMap Visit.transfers))
    (hheld : holds (d ++ ds) (Routed.add (recordsFor (vs.flatMap Visit.transfers)) (us.flatMap Visit.transfers)) w) :
    Tallied f gives holds r (s.setTask i t' (router, w)) (d ++ ds) (vs ++ us) := by
  have hflat : (vs ++ us).flatMap Visit.transfers = vs.flatMap Visit.transfers ++ us.flatMap Visit.transfers :=
    List.flatMap_append
  refine ⟨fun u hu => ?_, fun u hu => ?_, ?_, ?_, ?_, ?_⟩
  · rcases List.mem_or_eq_of_mem_set hu with hu | rfl
    · exact h.reached u hu
    · exact hreached
  · rcases List.mem_append.mp hu with hu | hu
    · exact h.settles u hu
    · exact hus u hu
  · have hset := perm_filterMap_set (g := Task.pending?) ht hpending
    calc
      List.Perm (d ++ ds) ((vs ++ s.tasks.filterMap Task.pending?) ++ ds) := h.pending.append_right ds
      List.Perm _ ((vs ++ us) ++ (s.tasks.set i t').filterMap Task.pending?) := by
        rw [List.append_assoc, List.append_assoc]
        exact hset.append_left vs
  · have hset := perm_filterMap_set (g := Task.settled?) (d := []) ht (.of_eq hended.symm)
    rw [List.map_append]
    exact hset.symm.trans (h.ended.append_right _)
  · rw [hrouter, hflat, Router.counted_append, ← h.counted]
    rfl
  · rwa [hflat, ← Routed.add_recordsFor]

theorem Tallied.stay (h : Tallied f gives holds r s d vs) (ht : s.tasks[i]? = some t)
    (hreached : f.Reached gives t'.record t'.stage) (hpending : t'.pending? = t.pending?)
    (hsettled : t'.settled? = t.settled?) (hheld : holds d (recordsFor (vs.flatMap Visit.transfers)) w) :
    Tallied f gives holds r (s.setTask i t' (s.world.1, w)) d vs := by
  have hset := h.setTask (w := w) [] [] ht hreached (fun v hv => absurd hv List.not_mem_nil)
    (by rw [hpending, List.append_nil, List.nil_append]) (by rw [hsettled]; exact (List.append_nil _).symm)
    (Router.counted_nil _).symm (by rwa [List.append_nil, List.flatMap_nil, Routed.add_nil])
  rwa [List.append_nil, List.append_nil] at hset

section Runs

variable (hupholds : f.Upholds gives holds) (hkeeps : ∀ d, Router.Keeps r.exporters (holds d))
include hupholds hkeeps

theorem Tallied.worked {stage : Stage} {world : Router σ × σ} (h : Tallied f gives holds r s d vs)
    (ht : s.tasks[i]? = some t) (hnext : f.next t.record t.stage s.world = some (stage, world))
    (hstage : stage.isDoomed = false) :
    ∃ d' vs', Tallied f gives holds r (s.setTask i { t with stage } world) d' vs' := by
  have hkept (d : List Visit) : Router.Keeps s.world.1.exporters (holds d) := by
    rw [h.counted]
    exact hkeeps d
  have hunsettled := Task.settled?_eq_none (Fetcher.isEnded_of_next hnext)
  have hworked := Fetcher.worked_of_next hupholds hkept h.held (h.reached t (List.mem_of_getElem? ht)) hnext
  generalize hfrom : t.stage = before at hworked
  have hpending : t.pending? = before.pending? := congrArg Stage.pending? hfrom
  cases hworked with
  | further hbefore hafter hended hreached hheld =>
    refine ⟨d, vs, h.stay ht hreached ?_ ?_ hheld⟩
    · exact hafter.trans (hpending.trans hbefore).symm
    · exact (Task.settled?_eq_none hended).trans hunsettled.symm
  | @settled _ v w hbefore hrecord hv hheld =>
    refine ⟨d ++ [v], _, h.setTask [v] [] ht (.attended hrecord hv) (fun v hv => absurd hv List.not_mem_nil) ?_ ?_
      (Router.counted_nil _).symm ?_⟩
    · rw [hpending, hbefore]
      exact .refl _
    · rw [hunsettled]
      rfl
    · rwa [List.flatMap_nil, Routed.add_nil]
  | @handed v w hrecord hv hheld =>
    refine ⟨_, vs ++ [v], h.setTask [] [v] ht .ended (List.forall_mem_singleton.mpr hv) ?_ ?_ ?_ ?_⟩
    · rw [hpending]
      exact .refl _
    · rw [hunsettled, ← hrecord]
      rfl
    · rw [List.flatMap_singleton]
    · rwa [List.append_nil, List.flatMap_singleton]
  | @aborted _ v w hbefore hrecord hv htransfers hheld =>
    refine ⟨d ++ [v], vs ++ [v], h.setTask [v] [v] ht .ended (List.forall_mem_singleton.mpr hv) ?_ ?_ ?_ ?_⟩
    · rw [hpending, hbefore]
      exact .refl _
    · rw [hunsettled, ← hrecord]
      rfl
    · rw [List.flatMap_singleton, htransfers, Router.counted_nil]
    · rwa [List.flatMap_singleton, htransfers, Routed.add_nil]
  | doomed hdoomed => exact absurd (hdoomed.symm.trans hstage) nofun

/-- One move. Only workers settle anything and hand it over. -/
theorem Tallied.moved (h : Tallied f gives holds r s d vs) (hmove : Moved f s s') (hunbroken : Unbroken s') :
    ∃ d' vs', Tallied f gives holds r s' d' vs' := by
  cases hmove with
  | @submitted record rest hmain =>
    have hnone {β : Type} {g : Task → Option β} {t : Task} (hg : g t = none) :
        (s.tasks ++ [t]).filterMap g = s.tasks.filterMap g := by
      rw [List.filterMap_append, List.filterMap_cons_none hg]
      exact List.append_nil _
    refine ⟨d, vs, fun t ht => ?_, h.settles, ?_, ?_, h.counted, h.held⟩
    · rcases List.mem_append.mp ht with ht | ht
      · exact h.reached t ht
      · rw [List.mem_singleton.mp ht]
        exact .queued
    · rw [hnone (g := Task.pending?) rfl]
      exact h.pending
    · rw [hnone (g := Task.settled?) rfl]
      exact h.ended
  | @taken i t ht hstage =>
    refine ⟨d, vs, h.stay ht .taken ?_ ?_ h.held⟩
    · simp [Task.pending?, Stage.pending?, hstage]
    · simp [Task.settled?, hstage]
  | @worked i t stage world ht hnext =>
    have hmem := List.mem_set (List.getElem?_eq_some_iff.mp ht).1 { t with stage }
    exact h.worked hupholds hkeeps ht hnext (hunbroken.undoomed _ hmem)
  | @collected i t invocation hmain ht hstage =>
    exact ⟨d, vs, h.stay ht (h.reached t (List.mem_of_getElem? ht)) rfl rfl h.held⟩
  | closed _ _ hclosed => exact absurd (hclosed.symm.trans hunbroken.isOpen) Bool.false_ne_true
  | _ => exact ⟨d, vs, h.reached, h.settles, h.pending, h.ended, h.counted, h.held⟩

theorem Tallied.run (h : Tallied f gives holds r s d vs) (hrun : s.run f owned size moves = some s')
    (hunbroken : Unbroken s') : ∃ d' vs', Tallied f gives holds r s' d' vs' := by
  induction moves generalizing s d vs with
  | nil =>
    cases hrun
    exact ⟨d, vs, h⟩
  | cons move rest ih =>
    obtain ⟨u, hstep, hrest⟩ := Option.bind_eq_some_iff.mp hrun
    obtain ⟨e, us, hu⟩ := h.moved hupholds hkeeps (moved_of_step hstep) (hunbroken.of_run hrest)
    exact ih hu hrest

end Runs

/-! ## What a batch comes to -/

variable {pool : Except Failure Pool} {batch : List (Option Record)}

theorem tallied_start (pool : Except Failure Pool) (batch : List (Option Record)) (hstart : holds [] .nothing w) :
    Tallied f gives holds r (start pool batch (r, w)) [] [] where
  reached _ ht := absurd ht List.not_mem_nil
  settles _ hv := absurd hv List.not_mem_nil
  pending := .refl _
  ended := .refl _
  counted := r.counted_nil.symm
  held := hstart

/-- A batch whose invocations ended well and were collected: all that was settled was handed over, and it is what the
caller collected. -/
structure Completed (f : Fetcher σ) (gives : Answering) (holds : List Visit → Routed → σ → Prop) (r : Router σ)
    (batch : List (Option Record)) (s : System σ) (d vs : List Visit) : Prop where
  records : (vs.map Visit.record).Perm batch
  settles : ∀ v ∈ vs, f.Settles gives v
  settled : d.Perm vs
  summary : s.summary = .ofInvocations (vs.map Visit.invocation) (r.counted (vs.flatMap Visit.transfers)).counts
  counted : s.world.1 = r.counted (vs.flatMap Visit.transfers)
  held : holds d (recordsFor (vs.flatMap Visit.transfers)) s.world.2

theorem exists_completed (hupholds : f.Upholds gives holds) (hkeeps : ∀ d, Router.Keeps r.exporters (holds d))
    (hstart : holds [] .nothing w) (hrun : (start pool batch (r, w)).run f owned size moves = some s)
    (hfinished : s.main = .closingRouter .finished) : ∃ d vs, Completed f gives holds r batch s d vs := by
  have hsound := sound_of_run (sound_start pool batch (r, w)) hrun
  obtain ⟨hrecords, hcollected⟩ := hsound.left .finished (congrArg Main.left? hfinished)
  have hended : ∀ t ∈ s.tasks, ∃ i, t.stage = .ended (.ok i) := fun t ht => hsound.collected t ht (hcollected t ht)
  have hunbroken : Unbroken s := by
    refine ⟨by rw [hfinished]; rfl, fun t ht => ?_⟩
    obtain ⟨i, hi⟩ := hended t ht
    rw [hi]
    rfl
  obtain ⟨d, vs, h⟩ := (tallied_start pool batch hstart).run hupholds hkeeps hrun hunbroken
  -- Every task has ended, so that all that was settled was handed over.
  have hpending : s.tasks.filterMap Task.pending? = [] := by
    rw [List.filterMap_eq_nil_iff]
    intro t ht
    obtain ⟨i, hi⟩ := hended t ht
    rw [Task.pending?, hi]
    rfl
  have hsettled : ∀ t ∈ s.tasks, t.settled?.map Prod.fst = some t.record := by
    intro t ht
    obtain ⟨i, hi⟩ := hended t ht
    simp [Task.settled?, hi]
  refine ⟨d, vs, ?_, h.settles, ?_, ?_, h.counted, h.held⟩
  · have hfirst := h.ended.map Prod.fst
    rw [List.map_filterMap, List.filterMap_congr hsettled, List.map_map] at hfirst
    rw [← hrecords, ← congrFun List.filterMap_eq_map s.tasks]
    exact hfirst.symm
  · have hperm := h.pending
    rwa [hpending, List.append_nil] at hperm
  · have hinvocations := h.ended.map Prod.snd
    rw [List.map_map] at hinvocations
    rw [System.summary, invocations, h.counted]
    exact Summary.ofInvocations_perm hinvocations

theorem Completed.counts (h : Completed f gives holds r batch s d vs) (hcounts : ∀ ch, r.counts ch = 0)
    (ch : Channel) : s.summary.channels ch = (recordsFor (vs.flatMap Visit.transfers) ch).length := by
  rw [h.summary]
  exact (congrArg (· + _) (hcounts ch)).trans (Nat.zero_add _)

theorem Completed.conserved (h : Completed f gives holds r batch s d vs) (hcounts : ∀ ch, r.counts ch = 0) :
    s.summary.Conserved batch := by
  have hchannels := h.counts hcounts
  rw [h.summary] at hchannels ⊢
  refine Summary.conserved_ofInvocations h.records fun ch => ?_
  refine (hchannels ch).trans (length_recordsFor_flatMap (fun v hv ch => ?_) ch)
  obtain ⟨answer, uuid, -, hvisit⟩ := h.settles v hv
  exact Fetcher.length_recordsFor hvisit ch

/-- Whatever the workers do between the steps of the caller: when the caller leaves its batch with every invocation
collected, it has counted each of them once and the router a record for each channel that takes its end. -/
theorem conserved_of_finished (hexporters : ∀ ch, ∃ e, Assoc.get? ch r.exporters = some e)
    (hcounts : ∀ ch, r.counts ch = 0) (hrun : (start pool batch (r, w)).run f owned size moves = some s)
    (hfinished : s.main = .closingRouter .finished) : s.summary.Conserved batch := by
  have hkeeps : Router.Keeps r.exporters fun _ _ => True := ⟨hexporters, fun _ _ _ => trivial⟩
  obtain ⟨d, vs, h⟩ := exists_completed (.trivial f) (fun _ => hkeeps) trivial hrun hfinished
  exact h.conserved hcounts

end System

end Workers

/-! ## Runs -/

namespace Runner

open Workers

variable {name : String} {job : JobConfig} {records : Option (List Record)} {x start y : Runner × Home} {o : Opened}
  {summary : Summary} {owned : Bool} {size : Nat} {moves : List Move} {s : System Home} {closed : Home}
  {holds : Routed → World → Prop} {transfers : List Transfer} {l : Routed} {before : Home}

theorem OpenedRun.added_of_closing (h : OpenedRun job x o start)
    (hledger : Ledger job.output job.jobName x.1.outputs x.2.now.tag h.beforeRouter.world Resource.outputs h.router
      holds) (hheld : holds l before.world)
    (hclosing : (o.router.counted transfers).closing.exec before = (.ok (), closed)) (ch : Channel) :
    job.output.Added job.jobName x.1.outputs x.2.now.tag x.2.world closed.world ch (l ch) := by
  obtain ⟨world, hworld, rfl⟩ := (h.closing_eq_ok_iff transfers).mp hclosing
  refine (hledger.settled hheld hworld ch).congr h.changes_beforeRouter.world (.refl _ _) ?_
  exact disjoint_outputs.mono_left (Set.union_subset_union Set.subset_union_left (by simp))

theorem OpenedRun.told_of_closing {location : String} {ds : List Visit} (h : OpenedRun job x o start)
    (hledger : Ledger job.output job.jobName x.1.outputs x.2.now.tag h.beforeRouter.world Resource.outputs h.router
      holds) (hheld : holds l before.world) (htold : Told x.1 location x.2 ds before)
    (hclosing : (o.router.counted transfers).closing.exec before = (.ok (), closed)) :
    Told x.1 location x.2 ds closed := by
  obtain ⟨world, hworld, rfl⟩ := (h.closing_eq_ok_iff transfers).mp hclosing
  exact htold.along (.of_world (hledger.closes hheld hworld))
    (disjoint_outputs_provenance.mono_left Set.subset_union_left)

/-- However the workers of a run go about its batch: when all of it ended well, the summary is conserved, and
closing the router leaves as many records in the output as were counted. -/
theorem OpenedRun.conserved_of_finished (h : OpenedRun job x o start)
    (hshared : ∀ s, Assoc.get? job.jobName x.1.stores = some s → s.Reads (Home.Changes Resource.outputsᶜ))
    (hrun : (System.start o.pool (batchOf records) (o.router, start.2)).run o.fetcher owned size moves = some s)
    (hfinished : s.main = .closingRouter .finished) :
    s.summary.Conserved (batchOf records) ∧
      ∀ {closed}, s.world.1.closing.exec s.world.2 = (.ok (), closed) → ∀ ch, ∃ added,
        job.output.Added job.jobName x.1.outputs x.2.now.tag x.2.world closed.world ch added ∧
          added.length = s.summary.channels ch := by
  obtain ⟨holds, hledger, hstart⟩ := h.exists_ledger
  obtain ⟨d, vs, hcompleted⟩ := System.exists_completed (h.upholds hledger hshared)
    (fun _ => h.keeps hledger.keeps) hstart hrun hfinished
  refine ⟨hcompleted.conserved h.counts, fun hclosing ch => ?_⟩
  rw [hcompleted.counted] at hclosing
  exact ⟨_, h.added_of_closing hledger hcompleted.held hclosing ch, (hcompleted.counts h.counts ch).symm⟩

/-- However the workers of a run go about its batch: when all of it ended well, closing the router leaves an event
for each new record, and their uuids differ from one another and from those of incoming records if the draws of uuids
do. -/
theorem OpenedRun.told_of_finished (h : OpenedRun job x o start)
    (hshared : ∀ s, Assoc.get? job.jobName x.1.stores = some s →
      s.Reads (Home.Changes (Resource.outputs ∪ Resource.provenance)ᶜ))
    (hrun : (System.start o.pool (batchOf records) (o.router, start.2)).run o.fetcher owned size moves = some s)
    (hfinished : s.main = .closingRouter .finished)
    (hclosing : s.world.1.closing.exec s.world.2 = (.ok (), closed)) :
    ∃ outs, job.output.Added job.jobName x.1.outputs x.2.now.tag x.2.world closed.world .success outs ∧
      outs.length = s.summary.statuses .found ∧
      (∀ path, x.1.provenance = .database path → ∃ rows,
        closed.files.eventsAt path.resolve = x.2.files.eventsAt path.resolve ++ rows ∧
        rows.Perm (outs.map (Provenance.row (x.2.now.textWith "T") o.fetcher.transitUri))) ∧
      ((∀ m n, x.2.world.drawn < m → x.2.world.drawn < n → x.2.uuid m = x.2.uuid n → m = n) →
        (∀ n, x.2.world.drawn < n → ∀ r ∈ records.getD [], x.2.uuid n ≠ r.uuid) →
        (outs.map Record.uuid).Nodup ∧ ∀ out ∈ outs, ∀ r ∈ records.getD [], out.uuid ≠ r.uuid) := by
  obtain ⟨holds, hledger, hstart⟩ := h.exists_ledger
  have hupholds := (h.upholds hledger fun s hs => (hshared s hs).outputs).and (h.told_upholds hshared x.2)
  obtain ⟨d, vs, hcompleted⟩ := System.exists_completed hupholds (h.told_keeps hledger x.2) ⟨hstart, h.told⟩ hrun
    hfinished
  rw [hcompleted.counted] at hclosing
  have htold := h.told_of_closing hledger hcompleted.held.1 hcompleted.held.2 hclosing
  have hnew : (newRecords d).Perm (newRecords vs) := ((hcompleted.settled.flatMap_right _).filter _).map _
  refine ⟨newRecords vs, h.added_of_closing hledger hcompleted.held.1 hclosing .success, ?_, fun path hpath => ?_,
    fun hinjective hincoming => ?_⟩
  · rw [← (hcompleted.conserved h.counts).success]
    exact (hcompleted.counts h.counts .success).symm
  · exact ⟨_, htold.events path hpath, hnew.map _⟩
  · obtain ⟨hnodup, hdifferent⟩ := htold.uuids hinjective _ hincoming
    exact ⟨(hnew.map _).nodup_iff.mp hnodup, fun out hout => hdifferent out (hnew.mem_iff.mpr hout)⟩

/-- As long as the documents stay, workers leave what a run does that goes through its records in order, in whatever
order they get and finish them: when all invocations ended well the summary is the same, and once the router is
closed so are the records of each channel and the events, but for their order and for drawn uuids. -/
theorem RunParts.alike_of_finished {records records' : List Record} (p : RunParts name (some records) x summary y)
    (hready : Ready x) (hshared : ∀ s, Assoc.get? p.job.jobName x.1.stores = some s → s.Still x.2)
    (hperm : records'.Perm records)
    (hrun : (System.start p.opened.pool (batchOf (some records')) (p.opened.router, p.start.2)).run p.opened.fetcher
      owned size moves = some s)
    (hfinished : s.main = .closingRouter .finished) :
    s.summary = summary ∧ ∃ closed, s.world.1.closing.exec s.world.2 = (.ok (), closed) ∧
      Alike p.job x.1 x.2 y.2 closed := by
  obtain ⟨h, holds, hledger, hstart⟩ := p.exists_ledger
  have hdependable := h.dependable hready hshared
  obtain ⟨receives, accepts, hempty, hreceivers, hcloses⟩ := h.exists_receivers hready
  have hreads (s : DocumentStore Home) (hs : Assoc.get? p.job.jobName x.1.stores = some s) := (hshared s hs).reads
  have hupholds := (h.upholds hledger fun s hs => (hreads s hs).outputs).and (h.told_upholds hreads x.2)
  obtain ⟨d, vs, hcompleted⟩ := System.exists_completed ((hdependable.upholds hreceivers).and hupholds)
    (fun d => hreceivers.keeps.and (h.told_keeps hledger x.2 d)) ⟨hempty, hstart, h.told⟩ hrun hfinished
  have hvisits := hdependable.perm_undrawn hreceivers hcompleted.settles
    (hcompleted.records.trans (hperm.map some)) p.went.goes hempty
  obtain ⟨closed, hclosed⟩ := hcloses hcompleted.held.1 (vs.flatMap Visit.transfers)
  have hadded := h.added_of_closing hledger hcompleted.held.2.1 hclosed
  have htold := h.told_of_closing hledger hcompleted.held.2.1 hcompleted.held.2.2 hclosed
  refine ⟨?_, closed, hcompleted.counted.symm ▸ hclosed, ?_⟩
  · rw [hcompleted.summary, Summary.ofInvocations_undrawn hvisits, ← p.after_eq]
    exact p.counted.symm
  · refine .of_visits hvisits.symm (p.added fun s hs => (hreads s hs).outputs) hadded (.refl _) hcompleted.settled
      (p.told hreads) htold

end Runner

end DocFetch
