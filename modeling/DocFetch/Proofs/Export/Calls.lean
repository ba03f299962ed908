import DocFetch.Proofs.Export.Marking

/-! # The calls of a router

A journal holds, for calls that are made one after another, how each ended, what it asked for and the counts that it
left. It tells which transfers the exporters accepted and which callbacks were called.
-/

namespace DocFetch

variable {σ ι : Type}

namespace Router

/-- Callbacks that never fail. -/
def Unfailing (release : List (Action σ Unit)) : Prop := ∀ a ∈ release, ∀ s, ∃ t, a.exec s = (.ok (), t)

theorem exec_release_ok {release : List (Action σ Unit)} (h : Unfailing release) (s : σ) :
    ∃ t, (release.forM fun a => a).exec s = (.ok (), t) := by
  induction release generalizing s with
  | nil => exact ⟨s, rfl⟩
  | cons a rest ih =>
    obtain ⟨ha, hrest⟩ := List.forall_mem_cons.mp h
    obtain ⟨t, ht⟩ := ha s
    rw [List.forM_eq_forM, List.forM_cons, Action.exec_bind_ok ht]
    exact ih hrest t

theorem fst_exec_close (x : Router σ × σ) :
    (close.exec x).2.1 = { x.1 with release := if (close.exec x).1.isOk then [] else x.1.release } := by
  obtain ⟨r, s⟩ := x
  rw [exec_close]
  rcases r.closing.exec s with ⟨ended, t⟩
  cases ended <;> rfl

/-! ## Journals -/

/-- A call of a router. -/
inductive Call
  | route (transfers : List Transfer)
  | flush
  | close

/-- A call with how it ended, what the router asked for, and the counts that it left. -/
structure Entry where
  call : Call
  ended : Except Failure Unit
  asked : Asked Operation
  counts : Channel → Nat

namespace Call

def perform : Call → Action (Router σ × σ) Unit
  | route transfers => Router.route transfers
  | flush => Router.flush
  | close => Router.close

/-- The entry of a call, what was asked for as the marked router tells it. -/
def entry (c : Call) (x : Router σ × σ) : Entry where
  call := c
  ended := (c.perform.exec x).1
  asked := (c.perform.exec (markedAt id x [])).2.2.2
  counts := (c.perform.exec x).2.1.counts

/-- A marked router goes through a call as the router does. -/
theorem exec_perform_marked (c : Call) (label : Operation → ι) (x : Router σ × σ) (before : Asked ι) :
    ∃ asked : Asked Operation, c.perform.exec (markedAt label x before) =
      ((c.perform.exec x).1, markedAt label (c.perform.exec x).2 (before ++ asked.relabel label)) := by
  cases c with
  | route ts =>
    obtain ⟨_, asked, -, -, hexec⟩ := exec_route_marked label ts x before
    exact ⟨asked, hexec⟩
  | flush =>
    obtain ⟨asked, -, -, hexec⟩ := exec_flush_marked label x before
    exact ⟨asked, hexec⟩
  | close =>
    obtain ⟨asked, -, hexec⟩ := exec_close_marked label x before
    exact ⟨asked, hexec⟩

end Call

/-- The entries of calls that are made one after another, however each ends. -/
def journal : List Call → Router σ × σ → List Entry
  | [], _ => []
  | c :: rest, x => c.entry x :: journal rest (c.perform.exec x).2

/-- The transfers that exporters accepted, in the order in which they were handed over. -/
def accepted (asked : Asked Operation) : List Transfer :=
  asked.filterMap fun
    | (.write c record, .ok ()) => some ⟨c, record⟩
    | _ => none

/-- How often the callback at a place was called. -/
def released (n : Nat) (asked : Asked Operation) : Nat := asked.countP fun a => a.1 = .release n

theorem accepted_append (asked more : Asked Operation) : accepted (asked ++ more) = accepted asked ++ accepted more :=
  List.filterMap_append

theorem accepted_done (ts : List Transfer) : accepted (Asked.done (ts.map .ofTransfer)) = ts := by
  rw [accepted, Asked.done, List.map_map, List.filterMap_map]
  exact List.filterMap_some

theorem accepted_eq_nil {asked : Asked Operation} (h : ∀ a ∈ asked, ∀ c record, a.1 ≠ .write c record) :
    accepted asked = [] := by
  rw [accepted, List.filterMap_eq_nil_iff]
  rintro ⟨o, ended⟩ ha
  cases o with
  | write c record => exact absurd rfl (h _ ha c record)
  | _ => rfl

theorem released_append (n : Nat) (asked more : Asked Operation) :
    released n (asked ++ more) = released n asked + released n more := List.countP_append

theorem released_eq_zero {n : Nat} {asked : Asked Operation} (h : ∀ a ∈ asked, a.1 ≠ .release n) :
    released n asked = 0 := by
  rw [released, List.countP_eq_zero]
  intro a ha
  simpa using h a ha

theorem released_releases (n callbacks : Nat) :
    released n (Asked.done (Operation.releases callbacks)) = if n < callbacks then 1 else 0 := by
  induction callbacks with
  | zero => rfl
  | succ k ih =>
    rw [Operation.releases, List.range_succ, List.map_append, Asked.done_append, released_append]
    have hlast : released n [(.release k, .ok ())] = if n = k then 1 else 0 := by
      simp [released, eq_comm]
    change released n (Asked.done (Operation.releases k)) + released n [(.release k, .ok ())] = _
    rw [ih, hlast]
    rcases Nat.lt_trichotomy n k with hbefore | heq | hafter
    · rw [if_pos hbefore, if_neg (Nat.ne_of_lt hbefore), if_pos (Nat.lt_succ_of_lt hbefore)]
    · rw [if_neg (Nat.not_lt.mpr (Nat.le_of_eq heq.symm)), if_pos heq, if_pos (heq ▸ Nat.lt_succ_self n)]
    · rw [if_neg (Nat.lt_asymm hafter), if_neg (Nat.ne_of_gt hafter), if_neg (Nat.not_lt.mpr hafter)]

theorem Handed.accepted_eq {channels : List Channel} {ts handed : List Transfer}
    {ended : Except Failure Unit} {asked : Asked Operation} (h : Handed channels ts ended handed asked) :
    accepted asked = handed := by
  cases h with
  | through _ => exact accepted_done ts
  | missing _ _ => exact accepted_done handed
  | refused _ _ =>
    rw [accepted_append, accepted_done]
    exact List.append_nil handed

namespace Entry

/-- Whether the entry is of a closing that returned. -/
def closes (e : Entry) : Bool :=
  match e.call with
  | .close => e.ended.isOk
  | _ => false

/-- What an entry tells of a router with exporters for some channels and so many callbacks left. -/
inductive Fits (channels : List Channel) (callbacks : Nat) : Entry → Prop
  | routed {ts handed : List Transfer} {ended : Except Failure Unit} {asked : Asked Operation}
      {counts : Channel → Nat} : Handed channels ts ended handed asked →
      Fits channels callbacks ⟨.route ts, ended, asked, counts⟩
  | flushed {ended : Except Failure Unit} {asked : Asked Operation} {counts : Channel → Nat} :
      Ran (channels.map .flush) ended asked → Fits channels callbacks ⟨.flush, ended, asked, counts⟩
  | closed {counts : Channel → Nat} :
      Fits channels callbacks
        ⟨.close, .ok (), Asked.done (Operation.endings channels ++ Operation.releases callbacks), counts⟩
  | unfinished {f : Failure} {asked : Asked Operation} {counts : Channel → Nat} :
      Ran (Operation.endings channels) (.error f) asked →
      Fits channels callbacks ⟨.close, .error f, asked, counts⟩

namespace Fits

variable {channels : List Channel} {callbacks : Nat} {e : Entry}

/-- Routing hands over the transfers in order, all of them if it returned. -/
theorem ordered (h : e.Fits channels callbacks) {ts : List Transfer} (hcall : e.call = .route ts) :
    ∃ rest, ts = accepted e.asked ++ rest ∧ (e.ended = .ok () ↔ rest = []) := by
  cases h with
  | routed hhanded =>
    cases hcall
    rw [hhanded.accepted_eq]
    cases hhanded with
    | through _ => exact ⟨[], (List.append_nil _).symm, iff_of_true rfl rfl⟩
    | missing _ _ => exact ⟨_, rfl, iff_of_false nofun nofun⟩
    | refused _ _ => exact ⟨_, rfl, iff_of_false nofun nofun⟩
  | _ => cases hcall

theorem unasked (h : e.Fits channels callbacks) (hcall : ∀ ts, e.call ≠ .route ts) : accepted e.asked = [] := by
  refine accepted_eq_nil fun a ha c record heq => ?_
  cases h with
  | routed _ => exact hcall _ rfl
  | flushed hran =>
    obtain ⟨c', -, hc⟩ := List.mem_map.mp (hran.mem ha)
    cases hc.trans heq
  | closed =>
    obtain ⟨o, ho, rfl⟩ := List.mem_map.mp ha
    cases heq
    rcases List.mem_append.mp ho with hends | hlast
    · exact Operation.write_notMem_endings c record channels hends
    · exact Operation.write_notMem_releases c record callbacks hlast
  | unfinished hran => exact Operation.write_notMem_endings c record channels (heq ▸ hran.mem ha)

theorem late (h : e.Fits channels callbacks) {n : Nat} {ended : Except Failure Unit}
    (hmem : (.release n, ended) ∈ e.asked) :
    e.call = .close ∧ ∃ more, e.asked = Asked.done (Operation.endings channels) ++ more ∧
      (.release n, ended) ∈ more := by
  cases h with
  | routed hhanded =>
    obtain ⟨t, -, heq⟩ := hhanded.mem hmem
    cases heq
  | flushed hran =>
    obtain ⟨c, -, heq⟩ := List.mem_map.mp (hran.mem hmem)
    cases heq
  | closed =>
    rw [Asked.done_append] at hmem
    refine ⟨rfl, _, Asked.done_append _ _, ?_⟩
    rcases List.mem_append.mp hmem with hends | hlast
    · obtain ⟨o, ho, heq⟩ := List.mem_map.mp hends
      cases heq
      exact absurd ho (Operation.release_notMem_endings n channels)
    · exact hlast
  | unfinished hran => exact absurd (hran.mem hmem) (Operation.release_notMem_endings n channels)

theorem released_eq (h : e.Fits channels callbacks) (n : Nat) :
    released n e.asked = if e.closes ∧ n < callbacks then 1 else 0 := by
  cases h with
  | routed hhanded =>
    rw [if_neg (by simp [closes])]
    refine released_eq_zero fun a ha heq => ?_
    obtain ⟨t, -, ht⟩ := hhanded.mem ha
    cases ht.symm.trans heq
  | flushed hran =>
    rw [if_neg (by simp [closes])]
    refine released_eq_zero fun a ha heq => ?_
    obtain ⟨c, -, hc⟩ := List.mem_map.mp (hran.mem ha)
    cases hc.trans heq
  | closed =>
    have hends : released n (Asked.done (Operation.endings channels)) = 0 := by
      refine released_eq_zero fun a ha heq => ?_
      obtain ⟨o, ho, rfl⟩ := List.mem_map.mp ha
      exact Operation.release_notMem_endings n channels (heq ▸ ho)
    rw [Asked.done_append, released_append, hends, released_releases, Nat.zero_add]
    simp [closes, Except.isOk, Except.toBool]
  | unfinished hran =>
    rw [if_neg (by simp [closes, Except.isOk, Except.toBool])]
    exact released_eq_zero fun a ha heq => Operation.release_notMem_endings n channels (heq ▸ hran.mem ha)

end Fits

end Entry

/-! ## Calls one after another -/

variable {x : Router σ × σ}

theorem Call.entry_eq {c : Call} {asked : Asked Operation}
    (h : c.perform.exec (markedAt id x []) =
      ((c.perform.exec x).1, markedAt id (c.perform.exec x).2 ([] ++ asked.relabel id))) :
    c.entry x = ⟨c, (c.perform.exec x).1, asked, (c.perform.exec x).2.1.counts⟩ := by
  rw [entry, h, Asked.relabel_id]
  rfl

/-- A call asks for what it plans, and the router counts what was accepted. -/
theorem Call.entry_fits (c : Call) (hrelease : Unfailing x.1.release) :
    (c.entry x).Fits x.1.channels x.1.release.length ∧
      (c.perform.exec x).2.1 =
        { x.1.counted (accepted (c.entry x).asked) with
          release := if (c.entry x).closes then [] else x.1.release } := by
  cases c with
  | route ts =>
    obtain ⟨handed, asked, hhanded, hcounted, hexec⟩ := exec_route_marked id ts x []
    rw [entry_eq (c := .route ts) hexec]
    refine ⟨.routed hhanded, ?_⟩
    dsimp only
    rw [hhanded.accepted_eq]
    exact hcounted
  | flush =>
    obtain ⟨asked, hran, hsame, hexec⟩ := exec_flush_marked id x []
    rw [entry_eq (c := .flush) hexec]
    have hfits : Entry.Fits x.1.channels x.1.release.length
        ⟨.flush, (Router.flush.exec x).1, asked, (Router.flush.exec x).2.1.counts⟩ := .flushed hran
    have hnone : accepted asked = [] := hfits.unasked nofun
    refine ⟨hfits, ?_⟩
    dsimp only
    rw [hnone, counted_nil]
    exact hsame
  | close =>
    obtain ⟨asked, hclosed, hexec⟩ := exec_close_marked id x []
    rw [entry_eq (c := .close) hexec]
    have hfits : Entry.Fits x.1.channels x.1.release.length
        ⟨.close, (Router.close.exec x).1, asked, (Router.close.exec x).2.1.counts⟩ := by
      generalize (Router.close.exec x).1 = ended at hclosed
      cases hclosed with
      | @released s asked hran =>
        obtain ⟨t, ht⟩ := exec_release_ok hrelease s
        rw [← forM_lasts] at ht
        rw [ht] at hran ⊢
        rw [hran.eq_done, ← Asked.done_append]
        exact .closed
      | unfinished hran => exact .unfinished hran
    have hnone : accepted asked = [] := hfits.unasked nofun
    refine ⟨hfits, ?_⟩
    dsimp only
    rw [hnone, counted_nil]
    exact fst_exec_close x

/-- How many callbacks are left after some entries. -/
def left (callbacks : Nat) (before : List Entry) : Nat := if before.any Entry.closes then 0 else callbacks

theorem left_cons (callbacks : Nat) (e : Entry) (before : List Entry) :
    left callbacks (e :: before) = left (if e.closes then 0 else callbacks) before := by
  unfold left
  rw [List.any_cons]
  cases e.closes <;> simp

namespace Call

theorem channels_perform (c : Call) (hrelease : Unfailing x.1.release) :
    (c.perform.exec x).2.1.channels = x.1.channels := by
  rw [(c.entry_fits hrelease).2]
  rfl

theorem release_perform (c : Call) (hrelease : Unfailing x.1.release) :
    (c.perform.exec x).2.1.release = if (c.entry x).closes then [] else x.1.release := by
  rw [(c.entry_fits hrelease).2]

theorem counts_perform (c : Call) (hrelease : Unfailing x.1.release) (channel : Channel) :
    (c.perform.exec x).2.1.counts channel =
      x.1.counts channel + (recordsFor (accepted (c.entry x).asked) channel).length := by
  rw [(c.entry_fits hrelease).2]
  rfl

theorem unfailing_perform (c : Call) (hrelease : Unfailing x.1.release) :
    Unfailing (c.perform.exec x).2.1.release := by
  intro a ha
  rw [c.release_perform hrelease] at ha
  split at ha
  · cases ha
  · exact hrelease a ha

end Call

variable {calls : List Call}

/-- Every entry of a journal fits what was left before it, and its counts grow by what was accepted. -/
theorem journal_eq_append {before : List Entry} {e : Entry} {after : List Entry}
    (hrelease : Unfailing x.1.release) (h : journal calls x = before ++ e :: after) :
    e.Fits x.1.channels (left x.1.release.length before) ∧
      ∀ c, e.counts c = x.1.counts c + (recordsFor (accepted ((before ++ [e]).flatMap Entry.asked)) c).length := by
  induction calls generalizing x before with
  | nil => exact absurd h (by simp [journal])
  | cons c rest ih =>
    rw [journal] at h
    cases before with
    | nil =>
      obtain ⟨rfl, -⟩ := List.cons.inj h
      refine ⟨(c.entry_fits hrelease).1, fun channel => ?_⟩
      rw [List.nil_append, List.flatMap_singleton]
      exact c.counts_perform hrelease channel
    | cons first before =>
      obtain ⟨rfl, hrest⟩ := List.cons.inj h
      obtain ⟨hfits, hcounts⟩ := ih (c.unfailing_perform hrelease) hrest
      rw [c.channels_perform hrelease, c.release_perform hrelease, apply_ite List.length, List.length_nil,
        ← left_cons] at hfits
      refine ⟨hfits, fun channel => ?_⟩
      rw [hcounts, c.counts_perform hrelease, List.cons_append, List.flatMap_cons, accepted_append,
        Routed.recordsFor_append, List.length_append, Nat.add_assoc]

/-- A callback was called once if the router was closed, else never. -/
theorem released_journal (hrelease : Unfailing x.1.release) (n : Nat) :
    released n ((journal calls x).flatMap Entry.asked) =
      if (journal calls x).any Entry.closes ∧ n < x.1.release.length then 1 else 0 := by
  induction calls generalizing x with
  | nil => rfl
  | cons c rest ih =>
    rw [journal, List.flatMap_cons, released_append, (c.entry_fits hrelease).1.released_eq,
      ih (c.unfailing_perform hrelease), c.release_perform hrelease, List.any_cons]
    cases (c.entry x).closes <;> simp

theorem map_call_journal (calls : List Call) (x : Router σ × σ) : (journal calls x).map Entry.call = calls := by
  induction calls generalizing x with
  | nil => rfl
  | cons c rest ih =>
    rw [journal, List.map_cons, ih]
    rfl

/-- What a journal tells of a router with exporters for some channels and so many callbacks. -/
structure Tells (channels : List Channel) (callbacks : Nat) (entries : List Entry) : Prop where
  /-- A call asks for what it plans, up to the first failure; callbacks are planned until a closing returned. -/
  fits : ∀ {before e after}, entries = before ++ e :: after → e.Fits channels (left callbacks before)
  /-- What is counted for a channel is what its exporter accepted. -/
  counted : ∀ {before e after}, entries = before ++ e :: after →
    ∀ c, e.counts c = (recordsFor (accepted ((before ++ [e]).flatMap Entry.asked)) c).length
  /-- Accepted are the transfers of each routing in order, all of them if it returned. -/
  ordered : ∀ {e ts}, e ∈ entries → e.call = .route ts →
    ∃ rest, ts = accepted e.asked ++ rest ∧ (e.ended = .ok () ↔ rest = [])
  unasked : ∀ {e}, e ∈ entries → (∀ ts, e.call ≠ .route ts) → accepted e.asked = []
  /-- Each callback was called once if a closing returned, else never. -/
  released : ∀ n, Router.released n (entries.flatMap Entry.asked) =
    if entries.any Entry.closes ∧ n < callbacks then 1 else 0
  /-- A callback is called by a closing, after every exporter was flushed and closed. -/
  late : ∀ {e n ended}, e ∈ entries → (.release n, ended) ∈ e.asked →
    e.call = .close ∧ ∃ more, e.asked = Asked.done (Operation.endings channels) ++ more ∧
      (.release n, ended) ∈ more

/-- However its exporters fail, a router counts for each channel what its exporter accepted, which are the
transfers up to the first that failed, and calls each callback at most once, after closing its exporters. -/
theorem journal_tells (exporters : List (Channel × Exporter σ)) (release : List (Action σ Unit))
    (hrelease : Unfailing release) (calls : List Call) (s : σ) :
    (journal calls ({ exporters, release }, s)).map Entry.call = calls ∧
      Tells (exporters.map Prod.fst) release.length (journal calls ({ exporters, release }, s)) := by
  have hfits {e : Entry} (he : e ∈ journal calls ({ exporters, release }, s)) :
      ∃ callbacks, e.Fits (exporters.map Prod.fst) callbacks := by
    obtain ⟨before, after, heq⟩ := List.append_of_mem he
    exact ⟨_, (journal_eq_append hrelease heq).1⟩
  refine ⟨map_call_journal calls _, ?_⟩
  constructor
  · intro before e after h
    exact (journal_eq_append hrelease h).1
  · intro before e after h c
    rw [(journal_eq_append hrelease h).2 c, Nat.zero_add]
  · intro e ts he hcall
    obtain ⟨_, h⟩ := hfits he
    exact h.ordered hcall
  · intro e he hcall
    obtain ⟨_, h⟩ := hfits he
    exact h.unasked hcall
  · exact released_journal hrelease
  · intro e n ended he hmem
    obtain ⟨_, h⟩ := hfits he
    exact h.late hmem

/-- An exporter that takes two records and then no more. -/
def sampleExporter : Exporter Nat where
  write _ := Action.ofFunction fun n => if n < 2 then (.ok (), n + 1) else (.error (.platform .system "full"), n)
  flush := pure ()
  close := pure ()

/-- A router with that exporter and a callback that does nothing. -/
def sampleRouter : Router Nat where
  exporters := [(.success, sampleExporter)]
  release := [pure ()]

/-- Three records where there is room for two, one for a channel without exporter, and closing twice. -/
def sampleCalls : List Call :=
  [.route [⟨.success, ⟨"a", [], .empty⟩⟩, ⟨.success, ⟨"b", [], .empty⟩⟩, ⟨.success, ⟨"c", [], .empty⟩⟩],
    .route [⟨.failure, ⟨"d", [], .empty⟩⟩], .close, .close]

theorem journal_tells_full :
    Unfailing sampleRouter.release ∧ Tells [.success] 1 (journal sampleCalls (sampleRouter, 0)) ∧
      (journal sampleCalls (sampleRouter, 0)).map (fun e => (e.ended.isOk, e.counts .success, released 0 e.asked)) =
        [(false, 2, 0), (false, 2, 0), (true, 2, 1), (true, 2, 0)] := by
  have hrelease : Unfailing sampleRouter.release := by
    intro a ha s
    rw [List.mem_singleton.mp ha]
    exact ⟨s, rfl⟩
  exact ⟨hrelease, (journal_tells sampleRouter.exporters sampleRouter.release hrelease sampleCalls 0).2,
    by decide +kernel⟩

end Router

end DocFetch
