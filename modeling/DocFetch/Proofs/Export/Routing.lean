import DocFetch.Export.Router
import DocFetch.Proofs.Moves

/-! # Routing

What exporters hold is told by a predicate on the records routed to each channel so far. Handing records over
keeps it true and counts them.
-/

namespace DocFetch

/-- The records routed to each channel so far. -/
abbrev Routed := Channel → List Record

namespace Routed

def nothing : Routed := fun _ => []

def add (l : Routed) (transfers : List Transfer) : Routed := fun c => l c ++ recordsFor transfers c

theorem recordsFor_cons (t : Transfer) (rest : List Transfer) (c : Channel) :
    recordsFor (t :: rest) c = recordsFor [t] c ++ recordsFor rest c := by
  simp [recordsFor, List.filter_cons]
  split <;> simp

theorem recordsFor_append (ts us : List Transfer) (c : Channel) :
    recordsFor (ts ++ us) c = recordsFor ts c ++ recordsFor us c := by
  simp [recordsFor]

@[simp] theorem recordsFor_self (c : Channel) (r : Record) : recordsFor [⟨c, r⟩] c = [r] := by
  simp [recordsFor]

theorem recordsFor_of_ne {c c' : Channel} (h : c ≠ c') (r : Record) : recordsFor [⟨c, r⟩] c' = [] := by
  simp [recordsFor, h]

theorem mem_recordsFor {ts : List Transfer} {c : Channel} {r : Record} :
    r ∈ recordsFor ts c ↔ ⟨c, r⟩ ∈ ts := by
  simp only [recordsFor, List.mem_map, List.mem_filter, decide_eq_true_eq]
  constructor
  · rintro ⟨t, ⟨ht, rfl⟩, rfl⟩
    exact ht
  · intro h
    exact ⟨⟨c, r⟩, ⟨h, rfl⟩, rfl⟩

@[simp] theorem add_nil (l : Routed) : l.add [] = l := by
  funext c
  simp [add, recordsFor]

theorem add_cons (l : Routed) (t : Transfer) (rest : List Transfer) :
    l.add (t :: rest) = (l.add [t]).add rest := by
  funext c
  simp [add, recordsFor_cons t rest]

theorem add_append (l : Routed) (ts us : List Transfer) : l.add (ts ++ us) = (l.add ts).add us := by
  funext c
  simp [add, recordsFor_append]

theorem add_recordsFor (ts us : List Transfer) : add (recordsFor ts) us = recordsFor (ts ++ us) := by
  funext c
  exact (recordsFor_append ts us c).symm

@[simp] theorem add_self (l : Routed) (c : Channel) (r : Record) : l.add [⟨c, r⟩] c = l c ++ [r] := by
  simp [add]

theorem add_of_ne (l : Routed) {c c' : Channel} (h : c ≠ c') (r : Record) : l.add [⟨c, r⟩] c' = l c' := by
  simp [add, recordsFor_of_ne h]

end Routed

namespace Router

variable {σ τ : Type} {exporters : List (Channel × Exporter σ)} {holds : Routed → σ → Prop} {l : Routed}

/-- Every channel has an exporter, and writing a record keeps what `holds` tells. -/
structure Keeps (exporters : List (Channel × Exporter σ)) (holds : Routed → σ → Prop) : Prop where
  exporter : ∀ c, ∃ e, Assoc.get? c exporters = some e
  write : ∀ {c : Channel} {e : Exporter σ} {l : Routed} {r : Record} {s t : σ},
    Assoc.get? c exporters = some e → holds l s → (e.write r).exec s = (.ok (), t) → holds (l.add [⟨c, r⟩]) t

theorem Keeps.and {holds' : Routed → σ → Prop} (h : Keeps exporters holds) (h' : Keeps exporters holds') :
    Keeps exporters fun l s => holds l s ∧ holds' l s :=
  ⟨h.exporter, fun he hl hwrite => ⟨h.write he hl.1 hwrite, h'.write he hl.2 hwrite⟩⟩

/-- Which channels take what is written to them. -/
def Takes (exporters : List (Channel × Exporter σ)) (holds : Routed → σ → Prop) (accepts : Channel → Prop) :
    Prop :=
  ∀ {c : Channel} {e : Exporter σ} {l : Routed} (r : Record) {s : σ},
    Assoc.get? c exporters = some e → holds l s → ((∃ t, (e.write r).exec s = (.ok (), t)) ↔ accepts c)

/-- The router after it counted what was routed. -/
def counted (r : Router σ) (transfers : List Transfer) : Router σ :=
  { r with counts := fun c => r.counts c + (recordsFor transfers c).length }

@[simp] theorem counted_nil (r : Router σ) : r.counted [] = r := by
  simp [counted, recordsFor]

theorem counted_append (r : Router σ) (ts us : List Transfer) :
    r.counted (ts ++ us) = (r.counted ts).counted us := by
  unfold counted
  congr 1
  funext c
  dsimp only
  rw [Routed.recordsFor_append, List.length_append, Nat.add_assoc]

theorem counted_cons (r : Router σ) (t : Transfer) (rest : List Transfer) :
    r.counted (t :: rest) = (r.counted [t]).counted rest := r.counted_append [t] rest

theorem countOne_eq (r : Router σ) (t : Transfer) : r.countOne t.channel = r.counted [t] := by
  unfold countOne counted
  congr 1
  funext c
  by_cases hc : c = t.channel
  · simp [hc, recordsFor]
  · simp [hc, recordsFor, Ne.symm hc]

theorem exec_beside {α : Type} (a : Action σ α) (r : Router σ) (s : σ) :
    (beside a).exec (r, s) = ((a.exec s).1, r, (a.exec s).2) := rfl

theorem exec_deliver {r : Router σ} {c : Channel} {e : Exporter σ} (he : Assoc.get? c r.exporters = some e)
    (record : Record) (s : σ) :
    (deliver ⟨c, record⟩).exec (r, s) =
      match (e.write record).exec s with
      | (.ok (), t) => (.ok (), r.counted [⟨c, record⟩], t)
      | (.error f, t) => (.error f, r, t) := by
  unfold deliver
  rw [Action.exec_bind_ok (Action.exec_get (r, s))]
  dsimp only
  rw [he]
  dsimp only
  rcases hwrite : (e.write record).exec s with ⟨end', t⟩
  have hbeside : (beside (e.write record)).exec (r, s) = (end', r, t) := by
    rw [exec_beside, hwrite]
  cases end' with
  | ok u => rw [Action.exec_bind_ok hbeside, Action.exec_modify, ← countOne_eq]
  | error f => rw [Action.exec_bind_error hbeside]

theorem route_eq_ok {transfers : List Transfer} {r : Router σ} {s : σ} {x : Router σ × σ}
    (hkeeps : Keeps r.exporters holds) (hl : holds l s) (h : (route transfers).exec (r, s) = (.ok (), x)) :
    x.1 = r.counted transfers ∧ holds (l.add transfers) x.2 := by
  induction transfers generalizing r s l with
  | nil =>
    cases h
    exact ⟨r.counted_nil.symm, by rwa [l.add_nil]⟩
  | cons t rest ih =>
    obtain ⟨u, ⟨r', s'⟩, hdeliver, hrest⟩ := Action.exec_bind_eq_ok h
    obtain ⟨e, he⟩ := hkeeps.exporter t.channel
    rw [exec_deliver he] at hdeliver
    rcases hwrite : (e.write t.record).exec s with ⟨end', s''⟩
    rw [hwrite] at hdeliver
    cases end' with
    | error f => cases hdeliver
    | ok u =>
      cases hdeliver
      obtain ⟨hrouter, hholds⟩ := ih (r := r.counted [t]) hkeeps (hkeeps.write he hl hwrite) hrest
      exact ⟨by rw [hrouter, ← counted_cons], by rwa [Routed.add_cons]⟩

/-- Routing returns when every channel that it writes to takes it. -/
theorem route_returns_iff {transfers : List Transfer} {r : Router σ} {s : σ} {accepts : Channel → Prop}
    (hkeeps : Keeps r.exporters holds) (htakes : Takes r.exporters holds accepts) (hl : holds l s) :
    (∃ x, (route transfers).exec (r, s) = (.ok (), x)) ↔ ∀ t ∈ transfers, accepts t.channel := by
  induction transfers generalizing r s l with
  | nil => exact ⟨fun _ _ h => absurd h List.not_mem_nil, fun _ => ⟨_, rfl⟩⟩
  | cons t rest ih =>
    obtain ⟨e, he⟩ := hkeeps.exporter t.channel
    rw [List.forall_mem_cons, ← htakes t.record he hl]
    have hdeliver := exec_deliver he t.record s
    rcases hwrite : (e.write t.record).exec s with ⟨end', s'⟩
    rw [hwrite] at hdeliver
    cases end' with
    | error f =>
      constructor
      · rintro ⟨x, hx⟩
        have hroute : (route (t :: rest)).exec (r, s) = (.error f, r, s') := Action.exec_bind_error hdeliver _
        rw [hroute] at hx
        cases hx
      · rintro ⟨⟨x, hx⟩, -⟩
        cases hx
    | ok u =>
      have hroute : (route (t :: rest)).exec (r, s) = (route rest).exec (r.counted [t], s') :=
        Action.exec_bind_ok hdeliver _
      rw [hroute, ih (r := r.counted [t]) hkeeps htakes (hkeeps.write he hl hwrite)]
      exact ⟨fun h => ⟨⟨s', rfl⟩, h⟩, fun h => h.2⟩

/-! ## Closing -/

/-- Closing as the state beside the router sees it. -/
def closing (r : Router σ) : Action σ Unit := do
  r.exporters.forM fun e => do
    e.2.flush
    e.2.close
  r.release.forM fun a => a

theorem lens_beside : Action.Lens Prod.snd (fun (x : Router σ × σ) t => (x.1, t)) :=
  ⟨fun _ _ => rfl, fun _ => rfl, fun _ _ _ => rfl⟩

theorem exec_close (r : Router σ) (s : σ) :
    close.exec (r, s) =
      match r.closing.exec s with
      | (.ok (), t) => (.ok (), { r with release := [] }, t)
      | (.error f, t) => (.error f, r, t) := by
  have hbeside : close.exec (r, s) =
      (beside r.closing >>= fun _ => modify fun x => ({ x.1 with release := [] }, x.2)).exec (r, s) := by
    unfold close closing beside
    rw [Action.exec_bind_ok (Action.exec_get (r, s)), lens_beside.zoom_bind, lens_beside.zoom_forM, bind_assoc,
      lens_beside.zoom_forM]
    simp only [lens_beside.zoom_bind]
  rw [hbeside]
  rcases hclosing : r.closing.exec s with ⟨end', t⟩
  have hzoom : (beside r.closing).exec (r, s) = (end', r, t) := by rw [exec_beside, hclosing]
  cases end' with
  | ok u => rw [Action.exec_bind_ok hzoom, Action.exec_modify]
  | error f => rw [Action.exec_bind_error hzoom]

/-! ## Seen from a larger state -/

variable {get : τ → σ} {set : τ → σ → τ}

theorem get?_zoom (c : Channel) (exporters : List (Channel × Exporter σ)) :
    Assoc.get? c (exporters.map fun e => (e.1, e.2.zoom get set)) =
      (Assoc.get? c exporters).map (·.zoom get set) := by
  induction exporters with
  | nil => rfl
  | cons e rest ih =>
    rw [List.map_cons, Assoc.get?, Assoc.get?, ih]
    split <;> rfl

theorem Keeps.zoom {r : Router σ} (hlens : Action.Lens get set) (h : Keeps r.exporters holds) :
    Keeps (r.zoom get set).exporters fun l s => holds l (get s) where
  exporter c := by
    obtain ⟨e, he⟩ := h.exporter c
    exact ⟨e.zoom get set, by rw [Router.zoom, get?_zoom, he, Option.map_some]⟩
  write {c e l record s t} he hl hwrite := by
    rw [Router.zoom, get?_zoom, Option.map_eq_some_iff] at he
    obtain ⟨e, he, rfl⟩ := he
    obtain ⟨u, hu, rfl⟩ := Action.exec_zoom_eq_ok hwrite
    rw [hlens.get_set]
    exact h.write he hl hu

theorem Takes.zoom {r : Router σ} {accepts : Channel → Prop} (h : Takes r.exporters holds accepts) :
    Takes (r.zoom get set).exporters (fun l s => holds l (get s)) accepts := by
  intro c e l record s he hl
  rw [Router.zoom, get?_zoom, Option.map_eq_some_iff] at he
  obtain ⟨e, he, rfl⟩ := he
  rw [← h record he hl]
  constructor
  · rintro ⟨t, ht⟩
    obtain ⟨u, hu, -⟩ := Action.exec_zoom_eq_ok ht
    exact ⟨u, hu⟩
  · rintro ⟨u, hu⟩
    refine ⟨set s u, ?_⟩
    change ((e.write record).zoom get set).exec s = _
    rw [Action.exec_zoom, hu]

theorem exec_deliver_zoom {r r' : Router σ} {t : Transfer} {s : τ} {u : σ}
    (h : (deliver t).exec (r, get s) = (.ok (), r', u)) :
    (deliver t).exec (r.zoom get set, s) = (.ok (), r'.zoom get set, set s u) := by
  cases he : Assoc.get? t.channel r.exporters with
  | none =>
    unfold deliver at h
    rw [Action.exec_bind_ok (Action.exec_get (r, get s))] at h
    dsimp only at h
    rw [he] at h
    cases h
  | some e =>
    have hzoom : Assoc.get? t.channel (r.zoom get set).exporters = some (e.zoom get set) := by
      rw [Router.zoom, get?_zoom, he, Option.map_some]
    rw [exec_deliver he] at h
    rw [exec_deliver hzoom]
    change (match ((e.write t.record).zoom get set).exec s with | (.ok (), t) => _ | (.error f, t) => _) = _
    rw [Action.exec_zoom]
    rcases hwrite : (e.write t.record).exec (get s) with ⟨ended, w⟩
    rw [hwrite] at h
    cases ended with
    | ok _ =>
      cases h
      rfl
    | error f => cases h

/-- What is routed from a larger state changes only the part that the router sees. -/
theorem exec_route_zoom (hlens : Action.Lens get set) {transfers : List Transfer} {r r' : Router σ} {s : τ} {u : σ}
    (h : (route transfers).exec (r, get s) = (.ok (), r', u)) :
    (route transfers).exec (r.zoom get set, s) = (.ok (), r'.zoom get set, set s u) := by
  induction transfers generalizing r s with
  | nil =>
    cases h
    rw [hlens.set_get]
    rfl
  | cons t rest ih =>
    obtain ⟨_, ⟨r₁, u₁⟩, hdeliver, hrest⟩ := Action.exec_bind_eq_ok h
    have hfirst : (deliver t).exec (r.zoom get set, s) = (.ok (), r₁.zoom get set, set s u₁) :=
      exec_deliver_zoom hdeliver
    change (deliver t >>= fun _ => route rest).exec (r.zoom get set, s) = _
    have hsame := hlens.get_set s u₁
    rw [Action.exec_bind_ok hfirst, ih (s := set s u₁) (by rw [hsame]; exact hrest), hlens.set_set]

theorem closing_zoom (hlens : Action.Lens get set) (r : Router σ) :
    (r.zoom get set).closing = r.closing.zoom get set := by
  unfold closing
  rw [hlens.zoom_bind, hlens.zoom_forM, hlens.zoom_forM]
  simp only [hlens.zoom_bind]
  simp only [Router.zoom, List.forM_eq_forM, List.forM_map]
  rfl

end Router

end DocFetch
