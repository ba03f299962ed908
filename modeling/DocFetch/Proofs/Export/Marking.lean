import DocFetch.Proofs.Export.Routing

/-! # Marked routers

A marked router does what the router does and keeps a list of what it asked of its exporters and of the callbacks
that release what they share, each with what came of it. Routing, flushing and closing ask for what they plan in
order, up to the first failure.
-/

namespace DocFetch

variable {σ ι κ : Type}

/-- What was asked for, in order, with what came of it. -/
abbrev Asked (ι : Type) := List (ι × Except Failure Unit)

namespace Asked

/-- Everything that was planned, done. -/
def done (planned : List ι) : Asked ι := planned.map (·, .ok ())

def relabel (label : κ → ι) (asked : Asked κ) : Asked ι := asked.map (Prod.map label id)

@[simp] theorem relabel_id (asked : Asked ι) : asked.relabel id = asked := by
  simp [relabel]

@[simp] theorem relabel_nil (label : κ → ι) : relabel label [] = [] := rfl

theorem relabel_append (label : κ → ι) (asked more : Asked κ) :
    relabel label (asked ++ more) = asked.relabel label ++ more.relabel label := List.map_append

theorem done_append (planned more : List ι) : done (planned ++ more) = done planned ++ done more := List.map_append

end Asked

/-- Does the action and keeps what came of it after what was asked before. -/
def Action.marked (label : ι) (a : Action σ Unit) : Action (σ × Asked ι) Unit :=
  Action.ofFunction fun s => let (ended, t) := a.exec s.1; (ended, t, s.2 ++ [(label, ended)])

@[simp] theorem Action.exec_marked (label : ι) (a : Action σ Unit) (s : σ) (before : Asked ι) :
    (a.marked label).exec (s, before) = ((a.exec s).1, (a.exec s).2, before ++ [(label, (a.exec s).1)]) := rfl

/-- What was planned is asked for in order, up to the first that fails. -/
inductive Ran : List ι → Except Failure Unit → Asked ι → Prop
  | through (planned : List ι) : Ran planned (.ok ()) (Asked.done planned)
  | broken (before : List ι) (o : ι) (rest : List ι) (f : Failure) :
      Ran (before ++ o :: rest) (.error f) (Asked.done before ++ [(o, .error f)])

namespace Ran

variable {planned more : List ι} {ended : Except Failure Unit} {asked : Asked ι}

theorem cons (h : Ran planned ended asked) (o : ι) : Ran (o :: planned) ended ((o, .ok ()) :: asked) := by
  cases h with
  | through => exact through (o :: planned)
  | broken before o' rest f => exact broken (o :: before) o' rest f

theorem eq_done (h : Ran planned (.ok ()) asked) : asked = Asked.done planned := by
  cases h
  rfl

theorem after_done (h : Ran more ended asked) (planned : List ι) :
    Ran (planned ++ more) ended (Asked.done planned ++ asked) := by
  induction planned with
  | nil => exact h
  | cons o rest ih => exact ih.cons o

theorem append_error {f : Failure} (h : Ran planned (.error f) asked) (more : List ι) :
    Ran (planned ++ more) (.error f) asked := by
  cases h with
  | broken before o rest f =>
    rw [List.append_assoc]
    exact broken before o (rest ++ more) f

theorem mem (h : Ran planned ended asked) {a : ι × Except Failure Unit} (ha : a ∈ asked) : a.1 ∈ planned := by
  cases h with
  | through =>
    obtain ⟨o, ho, rfl⟩ := List.mem_map.mp ha
    exact ho
  | broken before o rest f =>
    rcases List.mem_append.mp ha with hbefore | hlast
    · obtain ⟨o', ho, rfl⟩ := List.mem_map.mp hbefore
      exact List.mem_append_left _ ho
    · rw [List.mem_singleton.mp hlast]
      exact List.mem_append_right _ List.mem_cons_self

/-- A chain of marked steps goes as the chain does. -/
theorem forM (label : κ → ι) (steps : List (κ × Action σ Unit)) (s : σ) (before : Asked ι) :
    ∃ asked, Ran (steps.map Prod.fst) ((steps.forM Prod.snd).exec s).1 asked ∧
      (steps.forM fun p => p.2.marked (label p.1)).exec (s, before) =
        (((steps.forM Prod.snd).exec s).1, ((steps.forM Prod.snd).exec s).2, before ++ asked.relabel label) := by
  induction steps generalizing s before with
  | nil =>
    refine ⟨[], through [], ?_⟩
    rw [Asked.relabel_nil, List.append_nil]
    rfl
  | cons step rest ih =>
    obtain ⟨o, a⟩ := step
    simp only [List.forM_eq_forM, List.forM_cons, List.map_cons] at ih ⊢
    have hmarked := Action.exec_marked (label o) a s before
    rcases ha : a.exec s with ⟨ended, t⟩
    rw [ha] at hmarked
    cases ended with
    | error f =>
      rw [Action.exec_bind_error hmarked, Action.exec_bind_error ha]
      exact ⟨_, broken [] o _ f, rfl⟩
    | ok u =>
      rw [Action.exec_bind_ok hmarked, Action.exec_bind_ok ha]
      obtain ⟨asked, hran, hexec⟩ := ih t (before ++ [(label o, .ok ())])
      refine ⟨_, hran.cons o, ?_⟩
      rw [hexec, List.append_assoc]
      rfl

end Ran

/-! ## What a router asks for -/

/-- What a router asks for: of the exporter of a channel, or of the callback at a place. -/
inductive Operation
  | write (channel : Channel) (record : Record)
  | flush (channel : Channel)
  | close (channel : Channel)
  | release (place : Nat)
deriving DecidableEq

namespace Operation

def ofTransfer (t : Transfer) : Operation := write t.channel t.record

/-- What closing exporters asks for. -/
def endings (channels : List Channel) : List Operation := channels.flatMap fun c => [flush c, close c]

def releases (callbacks : Nat) : List Operation := (List.range callbacks).map release

theorem release_notMem_endings (n : Nat) (channels : List Channel) : release n ∉ endings channels := by
  simp [endings]

theorem write_notMem_endings (c : Channel) (record : Record) (channels : List Channel) :
    write c record ∉ endings channels := by
  simp [endings]

theorem write_notMem_releases (c : Channel) (record : Record) (callbacks : Nat) :
    write c record ∉ releases callbacks := by
  simp [releases]

end Operation

/-- The exporter that also keeps what is asked of it. -/
def Exporter.marked (label : Operation → ι) (c : Channel) (e : Exporter σ) : Exporter (σ × Asked ι) where
  write r := (e.write r).marked (label (.write c r))
  flush := e.flush.marked (label (.flush c))
  close := e.close.marked (label (.close c))

namespace Router

variable {label : Operation → ι}

def channels (r : Router σ) : List Channel := r.exporters.map Prod.fst

/-- The router that also keeps what it asks for. -/
def marked (label : Operation → ι) (r : Router σ) : Router (σ × Asked ι) where
  exporters := r.exporters.map fun e => (e.1, e.2.marked label e.1)
  release := r.release.mapIdx fun n a => a.marked (label (.release n))
  counts := r.counts

/-- A marked router beside its state and what was asked for. -/
def markedAt (label : Operation → ι) (x : Router σ × σ) (asked : Asked ι) :
    Router (σ × Asked ι) × (σ × Asked ι) := (x.1.marked label, x.2, asked)

theorem get?_marked (c : Channel) (exporters : List (Channel × Exporter σ)) :
    Assoc.get? c (exporters.map fun e => (e.1, e.2.marked label e.1)) =
      (Assoc.get? c exporters).map (·.marked label c) := by
  induction exporters with
  | nil => rfl
  | cons e rest ih =>
    rw [List.map_cons, Assoc.get?, Assoc.get?, ih]
    by_cases hc : e.1 = c
    · simp [hc]
    · simp [hc]

/-! ### Routing -/

/-- What routing asks for: the writes up to the first transfer that has no exporter or is not accepted, with the
transfers before that one. -/
inductive Handed (channels : List Channel) :
    List Transfer → Except Failure Unit → List Transfer → Asked Operation → Prop
  | through {ts : List Transfer} : (∀ t ∈ ts, t.channel ∈ channels) →
      Handed channels ts (.ok ()) ts (Asked.done (ts.map .ofTransfer))
  | missing {before : List Transfer} {t : Transfer} {rest : List Transfer} :
      (∀ u ∈ before, u.channel ∈ channels) → t.channel ∉ channels →
      Handed channels (before ++ t :: rest) (.error (.refused (.noExporter t.channel.name))) before
        (Asked.done (before.map .ofTransfer))
  | refused {before : List Transfer} {t : Transfer} {rest : List Transfer} {f : Failure} :
      (∀ u ∈ before, u.channel ∈ channels) → t.channel ∈ channels →
      Handed channels (before ++ t :: rest) (.error f) before
        (Asked.done (before.map .ofTransfer) ++ [(.ofTransfer t, .error f)])

theorem Handed.cons {channels : List Channel} {ts before : List Transfer} {ended : Except Failure Unit}
    {asked : Asked Operation} (h : Handed channels ts ended before asked) {t : Transfer}
    (ht : t.channel ∈ channels) :
    Handed channels (t :: ts) ended (t :: before) ((.ofTransfer t, .ok ()) :: asked) := by
  have hcons {us : List Transfer} (hall : ∀ u ∈ us, u.channel ∈ channels) : ∀ u ∈ t :: us, u.channel ∈ channels :=
    List.forall_mem_cons.mpr ⟨ht, hall⟩
  cases h with
  | through hall => exact through (hcons hall)
  | missing hall hnone => exact missing (hcons hall) hnone
  | refused hall hsome => exact refused (hcons hall) hsome

theorem Handed.mem {channels : List Channel} {ts handed : List Transfer} {ended : Except Failure Unit}
    {asked : Asked Operation} (h : Handed channels ts ended handed asked) {a : Operation × Except Failure Unit}
    (ha : a ∈ asked) : ∃ t ∈ ts, a.1 = .ofTransfer t := by
  have hdone {before : List Transfer} (h : a ∈ Asked.done (before.map .ofTransfer)) :
      ∃ t ∈ before, a.1 = .ofTransfer t := by
    obtain ⟨o, ho, rfl⟩ := List.mem_map.mp h
    obtain ⟨t, ht, rfl⟩ := List.mem_map.mp ho
    exact ⟨t, ht, rfl⟩
  cases h with
  | through _ => exact hdone ha
  | missing _ _ =>
    obtain ⟨t, ht, heq⟩ := hdone ha
    exact ⟨t, List.mem_append_left _ ht, heq⟩
  | @refused before t rest f _ _ =>
    rcases List.mem_append.mp ha with hbefore | hlast
    · obtain ⟨u, hu, heq⟩ := hdone hbefore
      exact ⟨u, List.mem_append_left _ hu, heq⟩
    · rw [List.mem_singleton.mp hlast]
      exact ⟨t, List.mem_append_right _ List.mem_cons_self, rfl⟩

theorem exec_deliver_missing {r : Router σ} {t : Transfer} (h : Assoc.get? t.channel r.exporters = none) (s : σ) :
    (deliver t).exec (r, s) = (.error (.refused (.noExporter t.channel.name)), r, s) := by
  unfold deliver
  rw [Action.exec_bind_ok (Action.exec_get (r, s))]
  dsimp only
  rw [h]
  rfl

theorem route_cons (t : Transfer) (rest : List Transfer) :
    route (σ := σ) (t :: rest) = deliver t >>= fun _ => route rest := rfl

/-- A marked router routes as the router does. -/
theorem exec_route_marked (label : Operation → ι) (ts : List Transfer) (x : Router σ × σ) (before : Asked ι) :
    ∃ accepted asked, Handed x.1.channels ts ((route ts).exec x).1 accepted asked ∧
      ((route ts).exec x).2.1 = x.1.counted accepted ∧
      (route ts).exec (markedAt label x before) =
        (((route ts).exec x).1, markedAt label ((route ts).exec x).2 (before ++ asked.relabel label)) := by
  induction ts generalizing x before with
  | nil =>
    refine ⟨[], [], .through nofun, x.1.counted_nil.symm, ?_⟩
    rw [Asked.relabel_nil, List.append_nil]
    rfl
  | cons t rest ih =>
    obtain ⟨r, s⟩ := x
    rw [route_cons, route_cons]
    have hnil : ∀ u ∈ ([] : List Transfer), u.channel ∈ r.channels := nofun
    cases he : Assoc.get? t.channel r.exporters with
    | none =>
      have hmarked : Assoc.get? t.channel (r.marked label).exporters = none := by
        rw [marked, get?_marked, he, Option.map_none]
      have hmissing := exec_deliver_missing hmarked (s, before)
      rw [Action.exec_bind_error (exec_deliver_missing he s), markedAt, Action.exec_bind_error hmissing]
      have hnot : t.channel ∉ r.channels := by
        rw [channels, ← Assoc.isSome_get?_iff, he]
        exact Bool.false_ne_true
      refine ⟨[], [], .missing hnil hnot, r.counted_nil.symm, ?_⟩
      rw [Asked.relabel_nil, List.append_nil]
      rfl
    | some e =>
      have hmem : t.channel ∈ r.channels := by
        rw [channels, ← Assoc.isSome_get?_iff, he]
        rfl
      have hmarked : Assoc.get? t.channel (r.marked label).exporters = some (e.marked label t.channel) := by
        rw [marked, get?_marked, he, Option.map_some]
      have hdeliver := exec_deliver he t.record s
      have hdeliver' := exec_deliver hmarked t.record (s, before)
      rw [show (e.marked label t.channel).write t.record = (e.write t.record).marked (label (.ofTransfer t)) from rfl,
        Action.exec_marked] at hdeliver'
      rcases hwrite : (e.write t.record).exec s with ⟨ended, u⟩
      rw [hwrite] at hdeliver hdeliver'
      cases ended with
      | error f =>
        rw [Action.exec_bind_error hdeliver, markedAt, Action.exec_bind_error hdeliver']
        exact ⟨[], _, .refused hnil hmem, r.counted_nil.symm, rfl⟩
      | ok _ =>
        rw [Action.exec_bind_ok hdeliver, markedAt, Action.exec_bind_ok hdeliver']
        obtain ⟨accepted, asked, hhanded, hcounted, hexec⟩ :=
          ih (r.counted [t], u) (before ++ [(label (.ofTransfer t), .ok ())])
        refine ⟨t :: accepted, _, hhanded.cons hmem, ?_, ?_⟩
        · rw [hcounted, ← counted_cons]
        · change (route rest).exec (markedAt label (r.counted [t], u) _) = _
          rw [hexec, List.append_assoc]
          rfl

/-! ### Flushing and closing -/

/-- What flushing goes through. -/
def flushes (r : Router σ) : List (Operation × Action σ Unit) := r.exporters.map fun e => (.flush e.1, e.2.flush)

/-- What closing the exporters goes through. -/
def ends (r : Router σ) : List (Operation × Action σ Unit) :=
  r.exporters.flatMap fun e => [(.flush e.1, e.2.flush), (.close e.1, e.2.close)]

/-- What releasing goes through. -/
def lasts (r : Router σ) : List (Operation × Action σ Unit) := r.release.mapIdx fun n a => (.release n, a)

theorem map_fst_flushes (r : Router σ) : r.flushes.map Prod.fst = r.channels.map .flush := by
  simp [flushes, channels]

theorem map_fst_ends (r : Router σ) : r.ends.map Prod.fst = Operation.endings r.channels := by
  simp [ends, channels, Operation.endings, List.map_flatMap, List.flatMap_map]

theorem map_fst_lasts (r : Router σ) : r.lasts.map Prod.fst = Operation.releases r.release.length :=
  List.ext_getElem (by simp [lasts, Operation.releases]) (by simp [lasts, Operation.releases])

theorem map_snd_lasts (r : Router σ) : r.lasts.map Prod.snd = r.release :=
  List.ext_getElem (by simp [lasts]) (by simp [lasts])

theorem exec_flush (r : Router σ) (s : σ) :
    flush.exec (r, s) = (((r.flushes.forM Prod.snd).exec s).1, r, ((r.flushes.forM Prod.snd).exec s).2) := by
  have hbeside : flush.exec (r, s) = (beside (r.flushes.forM Prod.snd)).exec (r, s) := by
    unfold flush beside flushes
    rw [Action.exec_bind_ok (Action.exec_get (r, s)), lens_beside.zoom_forM]
    simp only [List.forM_eq_forM, List.forM_map]
  rw [hbeside, exec_beside]

theorem forM_ends (exporters : List (Channel × Exporter σ)) :
    ((exporters.flatMap fun e => [(Operation.flush e.1, e.2.flush), (.close e.1, e.2.close)]).forM Prod.snd) =
      exporters.forM fun e => e.2.flush >>= fun _ => e.2.close := by
  induction exporters with
  | nil => rfl
  | cons e rest ih =>
    simp only [List.forM_eq_forM, List.flatMap_cons, List.forM_append, List.forM_cons, List.forM_nil] at ih ⊢
    rw [ih, bind_assoc, bind_assoc]
    simp

theorem forM_lasts (r : Router σ) : r.lasts.forM Prod.snd = r.release.forM fun a => a := by
  rw [← map_snd_lasts, List.forM_eq_forM, List.forM_eq_forM, List.forM_map]

theorem closing_eq (r : Router σ) : r.closing = r.ends.forM Prod.snd >>= fun _ => r.lasts.forM Prod.snd := by
  rw [forM_lasts, ends, forM_ends]
  rfl

/-- A step of a router as its marked router takes it. -/
def markedStep (label : Operation → ι) (p : Operation × Action σ Unit) : Operation × Action (σ × Asked ι) Unit :=
  (p.1, p.2.marked (label p.1))

theorem flushes_marked (r : Router σ) : (r.marked label).flushes = r.flushes.map (markedStep label) := by
  simp only [flushes, marked, List.map_map]
  rfl

theorem ends_marked (r : Router σ) : (r.marked label).ends = r.ends.map (markedStep label) := by
  simp only [ends, marked, List.flatMap_map, List.map_flatMap]
  rfl

theorem lasts_marked (r : Router σ) : (r.marked label).lasts = r.lasts.map (markedStep label) :=
  List.ext_getElem (by simp [lasts, marked]) (by simp [lasts, marked, markedStep])

theorem forM_markedStep (label : Operation → ι) (steps : List (Operation × Action σ Unit)) :
    (steps.map (markedStep label)).forM Prod.snd = steps.forM fun p => p.2.marked (label p.1) := by
  rw [List.forM_eq_forM, List.forM_eq_forM, List.forM_map]
  rfl

theorem exec_flush_marked (label : Operation → ι) (x : Router σ × σ) (before : Asked ι) :
    ∃ asked, Ran (x.1.channels.map .flush) (flush.exec x).1 asked ∧ (flush.exec x).2.1 = x.1 ∧
      flush.exec (markedAt label x before) =
        ((flush.exec x).1, markedAt label (flush.exec x).2 (before ++ asked.relabel label)) := by
  obtain ⟨r, s⟩ := x
  obtain ⟨asked, hran, hexec⟩ := Ran.forM label r.flushes s before
  rw [map_fst_flushes] at hran
  refine ⟨asked, ?_, ?_, ?_⟩
  · rw [exec_flush]
    exact hran
  · rw [exec_flush]
  · rw [markedAt, exec_flush, exec_flush, flushes_marked, forM_markedStep, hexec]
    rfl

/-- What closing asks for: the callbacks are called if every exporter was flushed and closed. -/
inductive Closed (r : Router σ) : Except Failure Unit → Asked Operation → Prop
  | released {s : σ} {asked : Asked Operation} :
      Ran (Operation.releases r.release.length) ((r.lasts.forM Prod.snd).exec s).1 asked →
      Closed r ((r.lasts.forM Prod.snd).exec s).1 (Asked.done (Operation.endings r.channels) ++ asked)
  | unfinished {f : Failure} {asked : Asked Operation} :
      Ran (Operation.endings r.channels) (.error f) asked → Closed r (.error f) asked

/-- What closing asks for if nothing fails. -/
def plan (r : Router σ) : List Operation := Operation.endings r.channels ++ Operation.releases r.release.length

theorem Closed.ran {r : Router σ} {ended : Except Failure Unit} {asked : Asked Operation} (h : r.Closed ended asked) :
    Ran r.plan ended asked := by
  cases h with
  | released hran => exact hran.after_done _
  | unfinished hran => exact hran.append_error _

theorem exec_close_marked (label : Operation → ι) (x : Router σ × σ) (before : Asked ι) :
    ∃ asked, x.1.Closed (close.exec x).1 asked ∧
      close.exec (markedAt label x before) =
        ((close.exec x).1, markedAt label (close.exec x).2 (before ++ asked.relabel label)) := by
  obtain ⟨r, s⟩ := x
  obtain ⟨asked, hran, hexec⟩ := Ran.forM label r.ends s before
  rw [map_fst_ends] at hran
  rw [markedAt, exec_close, exec_close, closing_eq, closing_eq, ends_marked, lasts_marked, forM_markedStep,
    forM_markedStep]
  rcases hends : (r.ends.forM Prod.snd).exec s with ⟨ended, t⟩
  rw [hends] at hran hexec
  cases ended with
  | error f =>
    rw [Action.exec_bind_error hends, Action.exec_bind_error hexec]
    exact ⟨asked, .unfinished hran, rfl⟩
  | ok _ =>
    obtain ⟨more, hmore, hlast⟩ := Ran.forM label r.lasts t (before ++ asked.relabel label)
    rw [map_fst_lasts] at hmore
    rw [Action.exec_bind_ok hends, Action.exec_bind_ok hexec, hlast, List.append_assoc, ← Asked.relabel_append]
    refine ⟨asked ++ more, ?_, ?_⟩
    · have hclosed := Closed.released hmore
      rw [← hran.eq_done] at hclosed
      rcases hrelease : (r.lasts.forM Prod.snd).exec t with ⟨ended, u⟩
      rw [hrelease] at hclosed
      cases ended <;> exact hclosed
    · rcases (r.lasts.forM Prod.snd).exec t with ⟨ended, u⟩
      cases ended <;> rfl

end Router

end DocFetch
