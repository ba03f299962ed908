import DocFetch.Proofs.Job.Opening

/-! # Conservation

A summary counts invocations by how they ended and records by the channel that they went to. Each invocation sends
one record for the status of each channel, so that the two counts agree, and what was counted is what the run
added to its output.
-/

namespace DocFetch

/-- The end of the invocations that send a record to the channel. -/
def Channel.status : Channel → Status
  | success => .found
  | original => .found
  | retry => .storeError
  | failure => .notFound

/-- Whether a visit sends a record to a channel: without a record of its own only to one. -/
def Visit.sends (v : Visit) (ch : Channel) : Bool :=
  v.invocation.status = ch.status && (v.record.isSome || ch = .success)

namespace Fetcher

variable {σ : Type} {f : Fetcher σ} {record : Option Record} {v : Visit} {uuid : String}
  {answers : String → Except Failure (Document ByteArray)}

theorem length_recordsFor_transfersFor (f : Fetcher σ) (record : Option Record) (id uuid : String)
    (result : FetchResult) (ch : Channel) :
    (recordsFor (f.transfersFor record id uuid result) ch).length =
      if Status.ofResult result = ch.status ∧ (record.isSome ∨ ch = .success) then 1 else 0 := by
  cases result <;> cases record <;> cases ch <;> rfl

theorem length_recordsFor (h : f.visit answers uuid record = .ok v) (ch : Channel) :
    (recordsFor v.transfers ch).length = if v.sends ch then 1 else 0 := by
  rcases visit_eq_ok h with ⟨e, -, rfl⟩ | ⟨id, result, -, -, rfl⟩
  · cases ch <;> rfl
  · rw [Visit.completed, length_recordsFor_transfersFor]
    simp [Visit.sends]

end Fetcher

theorem length_recordsFor_flatMap {vs : List Visit}
    (h : ∀ v ∈ vs, ∀ ch, (recordsFor v.transfers ch).length = if v.sends ch then 1 else 0) (ch : Channel) :
    (recordsFor (vs.flatMap Visit.transfers) ch).length = vs.countP (·.sends ch) := by
  induction vs with
  | nil => rfl
  | cons v rest ih =>
    rw [List.forall_mem_cons] at h
    rw [List.flatMap_cons, Routed.recordsFor_append, List.length_append, h.1 ch, ih h.2, List.countP_cons,
      Nat.add_comm]

theorem countP_sends {vs : List Visit} {ch : Channel} (h : ∀ v ∈ vs, v.record.isSome = true ∨ ch = .success) :
    vs.countP (·.sends ch) = vs.countP fun v => v.invocation.status = ch.status := by
  refine List.countP_congr fun v hv => ?_
  rcases h v hv with hsome | rfl
  · simp [Visit.sends, hsome]
  · simp [Visit.sends]

theorem countP_sends_of_timer {vs : List Visit} {ch : Channel} (h : ∀ v ∈ vs, v.record = none)
    (hch : ch ≠ .success) : vs.countP (·.sends ch) = 0 := by
  rw [List.countP_eq_zero]
  intro v hv
  simp [Visit.sends, h v hv, hch]

/-! ## Summaries -/

namespace Summary

variable {vs : List Visit} {counts : Channel → Nat}

theorem statuses_ofInvocations (vs : List Visit) (counts : Channel → Nat) (status : Status) :
    (ofInvocations (vs.map Visit.invocation) counts).statuses status =
      vs.countP fun v => v.invocation.status = status := List.countP_map

theorem sum_statuses (vs : List Visit) (counts : Channel → Nat) :
    let summary := ofInvocations (vs.map Visit.invocation) counts
    summary.statuses .found + summary.statuses .notFound + summary.statuses .storeError + summary.statuses .aborted =
      vs.length := by
  simp only [statuses_ofInvocations]
  induction vs with
  | nil => rfl
  | cons v rest ih =>
    simp only [List.countP_cons, List.length_cons]
    rw [← ih]
    cases v.invocation.status <;> simp <;> omega

end Summary

/-! ## Runs -/

namespace Runner

variable {name : String} {records : Option (List Record)} {x y : Runner × Home} {summary : Summary}

theorem length_batchOf (records : Option (List Record)) : (batchOf records).length = records.elim 1 List.length := by
  cases records with
  | none => rfl
  | some rs => exact List.length_map _

theorem OpenedRun.exists_ledger {job : JobConfig} {o : Opened} {start : Runner × Home}
    (h : OpenedRun job x o start) :
    ∃ holds : Routed → World → Prop,
      Ledger job.output job.jobName x.1.outputs x.2.now.tag h.beforeRouter.world Resource.outputs h.router holds ∧
      holds .nothing start.2.world := by
  obtain ⟨holds, hnothing, hledger⟩ := OutputConfig.exists_ledger h.opened
  refine ⟨holds, hledger, hledger.stable hnothing h.started.world ?_⟩
  exact disjoint_outputs.mono_left (Set.subset_union_left.trans Set.subset_union_left)

theorem OpenedRun.counts {job : JobConfig} {o : Opened} {start : Runner × Home} (h : OpenedRun job x o start)
    (ch : Channel) : o.router.counts ch = 0 := by
  obtain ⟨holds, hledger, -⟩ := h.exists_ledger
  rw [h.zoomed]
  exact hledger.counts ch

namespace RunParts

theorem exists_ledger (p : RunParts name records x summary y) :
    ∃ (h : OpenedRun p.job x p.opened p.start) (holds : Routed → World → Prop),
      Ledger p.job.output p.job.jobName x.1.outputs x.2.now.tag h.beforeRouter.world Resource.outputs h.router
        holds ∧
      holds .nothing p.start.2.world := by
  obtain ⟨h⟩ := openRun_eq_ok p.opening
  exact ⟨h, h.exists_ledger⟩

theorem after_eq (p : RunParts name records x summary y) :
    p.after.1 = p.opened.router.counted (p.visits.flatMap Visit.transfers) := by
  obtain ⟨h, holds, hledger, -⟩ := p.exists_ledger
  have hkeeps : Router.Keeps p.opened.router.exporters fun _ _ => True :=
    ⟨(h.keeps hledger.keeps).exporter, fun _ _ _ => trivial⟩
  exact (p.went.goes.holds (d := []) (l := .nothing) (fun _ => hkeeps) (.trivial _) trivial).1

theorem exists_closing (p : RunParts name records x summary y) (h : OpenedRun p.job x p.opened p.start) :
    ∃ world, h.router.closing.exec p.after.2.world = (.ok (), world) ∧ p.closed = { p.after.2 with world } := by
  have hclosing := p.went.closing
  rwa [p.after_eq, h.closing_eq_ok_iff] at hclosing

theorem channels_eq_length (p : RunParts name records x summary y) (ch : Channel) :
    summary.channels ch = (recordsFor (p.visits.flatMap Visit.transfers) ch).length := by
  obtain ⟨h⟩ := openRun_eq_ok p.opening
  calc summary.channels ch = p.after.1.counts ch := congrArg (Summary.channels · ch) p.counted
    _ = p.opened.router.counts ch + (recordsFor (p.visits.flatMap Visit.transfers) ch).length := by
      rw [p.after_eq]
      rfl
    _ = _ := by rw [h.counts, Nat.zero_add]

theorem channels_eq (p : RunParts name records x summary y) (ch : Channel) :
    summary.channels ch = p.visits.countP (·.sends ch) := by
  rw [p.channels_eq_length]
  refine length_recordsFor_flatMap (fun v hv ch => ?_) ch
  obtain ⟨answer, uuid, -, hvisit⟩ := p.went.goes.settles v hv
  exact Fetcher.length_recordsFor hvisit ch

theorem statuses_eq (p : RunParts name records x summary y) (status : Status) :
    summary.statuses status = p.visits.countP fun v => v.invocation.status = status :=
  (congrArg (Summary.statuses · status) p.counted).trans (Summary.statuses_ofInvocations _ _ status)

theorem record_mem (p : RunParts name records x summary y) {v : Visit} (hv : v ∈ p.visits) :
    v.record ∈ batchOf records := by
  rw [← p.went.goes.records]
  exact List.mem_map_of_mem hv

theorem channels_eq_statuses (p : RunParts name records x summary y) {ch : Channel}
    (h : ∀ v ∈ p.visits, v.record.isSome = true ∨ ch = .success) :
    summary.channels ch = summary.statuses ch.status := by
  rw [p.channels_eq, p.statuses_eq, countP_sends h]

theorem channels_of_records {rs : List Record} (p : RunParts name (some rs) x summary y) (ch : Channel) :
    summary.channels ch = summary.statuses ch.status := by
  refine p.channels_eq_statuses fun v hv => .inl ?_
  obtain ⟨r, -, hr⟩ := List.mem_map.mp (p.record_mem hv)
  rw [← hr, Option.isSome_some]

theorem channels_of_timer (p : RunParts name none x summary y) {ch : Channel} (hch : ch ≠ .success) :
    summary.channels ch = 0 := by
  rw [p.channels_eq]
  exact countP_sends_of_timer (fun v hv => List.mem_singleton.mp (p.record_mem hv)) hch

/-- What the run added to its output is what went to the channels, where a shared store leaves outputs alone. -/
theorem added (p : RunParts name records x summary y)
    (hshared : ∀ s, Assoc.get? p.job.jobName x.1.stores = some s → s.Reads (Home.Changes Resource.outputsᶜ))
    (ch : Channel) :
    p.job.output.Added p.job.jobName x.1.outputs x.2.now.tag x.2.world y.2.world ch
      (recordsFor (p.visits.flatMap Visit.transfers) ch) := by
  obtain ⟨h, holds, hledger, hstart⟩ := p.exists_ledger
  have hlogs : Disjoint (Resource.logs ∪ {.directories}) Resource.outputs := by
    refine disjoint_outputs.mono_left (Set.union_subset_union Set.subset_union_left ?_)
    rintro r rfl
    exact .inl rfl
  obtain ⟨-, hheld⟩ := p.went.goes.holds (d := []) (fun _ => h.keeps hledger.keeps) (h.upholds hledger hshared) hstart
  obtain ⟨world, hworld, hclosed⟩ := p.exists_closing h
  have hlast := p.changes_closed
  rw [hclosed] at hlast
  exact (hledger.settled hheld hworld ch).congr h.changes_beforeRouter.world
    (hlast.world.mono Set.subset_union_left) hlogs

end RunParts

/-- The invocations of a run that returned are those of its batch, each counted once by its end. Records are
counted by the channel that takes them for an end, and as many were added to the output, provided that a shared
store leaves outputs alone while it is read. -/
theorem run_conserves (h : (run name records).exec x = (.ok summary, y)) :
    summary.statuses .found + summary.statuses .notFound + summary.statuses .storeError +
      summary.statuses .aborted = records.elim 1 List.length ∧
    summary.channels .success = summary.statuses .found ∧
    (records ≠ none → summary.channels .original = summary.statuses .found ∧
      summary.channels .failure = summary.statuses .notFound ∧
      summary.channels .retry = summary.statuses .storeError) ∧
    (records = none → summary.channels .original = 0 ∧ summary.channels .failure = 0 ∧
      summary.channels .retry = 0) ∧
    ∃ job, x.1.layout.loadJob x.2.files name = .ok job ∧
      ((∀ s, Assoc.get? job.jobName x.1.stores = some s → s.Reads (Home.Changes Resource.outputsᶜ)) →
        ∀ ch, ∃ added, job.output.Added job.jobName x.1.outputs x.2.now.tag x.2.world y.2.world ch added ∧
          added.length = summary.channels ch) := by
  obtain ⟨p⟩ := run_eq_ok_iff.mp h
  refine ⟨?_, p.channels_eq_statuses fun _ _ => .inr rfl, ?_, ?_, p.job, p.loaded, fun hshared ch =>
    ⟨_, p.added hshared ch, (p.channels_eq_length ch).symm⟩⟩
  · have hlength : p.visits.length = (batchOf records).length := by
      rw [← p.went.goes.records, List.length_map]
    rw [← length_batchOf, ← hlength, ← Summary.sum_statuses p.visits p.after.1.counts, ← p.counted]
  · intro hsome
    obtain ⟨rs, rfl⟩ := Option.ne_none_iff_exists'.mp hsome
    exact ⟨p.channels_of_records _, p.channels_of_records _, p.channels_of_records _⟩
  · rintro rfl
    exact ⟨p.channels_of_timer (by decide), p.channels_of_timer (by decide), p.channels_of_timer (by decide)⟩

/-- One record of each end. -/
theorem run_conserves_sample :
    ∃ summary y, (run "j" (some sampleRecords)).exec (sampleRunner, sampleHome) = (.ok summary, y) ∧
      Status.all.map summary.statuses = [1, 1, 0, 1] ∧ Channel.all.map summary.channels = [1, 1, 0, 1] ∧
      ∃ job, sampleHome.layout.loadJob sampleHome.files "j" = .ok job ∧ ∀ ch, ∃ added,
        job.output.Added job.jobName sampleRunner.outputs sampleHome.now.tag sampleHome.world y.2.world ch added ∧
          added.length = summary.channels ch := by
  obtain ⟨summary, y, hrun, hstatuses, hchannels⟩ := run_sample
  obtain ⟨-, -, -, -, job, hjob, hadded⟩ := run_conserves hrun
  refine ⟨summary, y, hrun, hstatuses, hchannels, job, hjob, hadded fun s hs => ?_⟩
  obtain ⟨m, rfl⟩ := sampleRunner_stores hs
  exact m.reads

end Runner

end DocFetch
