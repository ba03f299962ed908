import DocFetch.Proofs.Export.Inserts
import DocFetch.Proofs.Export.Lines
import DocFetch.Proofs.Export.Rows

/-! # Outputs of any format

Whatever its format, the output of a run keeps a ledger. What was handed over before it was closed is then at
its destinations.
-/

namespace DocFetch

namespace OutputConfig

variable {c : OutputConfig} {job tag : String} {directory : Path} {w w' : World} {r : Router World}

theorem changes_openRouter (h : (c.openRouter job directory tag).exec w = (.ok r, w')) :
    w.Changes (Resource.outputs ∪ {.directories}) w' := by
  cases hformat : c.format with
  | json => exact (FileExport.openRouter_eq_ok hformat h).changes
  | sqlite => exact (TableExport.openRouter_eq_ok hformat h).changes
  | mongodb => exact (CollectionExport.openRouter_eq_ok hformat h).changes.mono (Set.empty_subset _)

theorem Added.congr {before before' after after' : World} {ch : Channel} {records : List Record}
    {scope : Set Resource}
    (h : c.Added job directory tag before after ch records) (hbefore : before'.Changes scope before)
    (hafter : after.Changes scope after') (hscope : Disjoint scope Resource.outputs) :
    c.Added job directory tag before' after' ch records := by
  have hkept {x : Resource} (hx : x ∈ Resource.outputs) : x ∉ scope := fun hmem =>
    Set.disjoint_left.mp hscope hmem hx
  unfold Added at h ⊢
  cases hformat : c.format with
  | json =>
    have hplace : Resource.text (FileExport.place directory job tag ch).resolve ∉ scope :=
      hkept (FileExport.isLog_resolve_place directory job tag ch)
    rw [hformat] at h
    dsimp only at h ⊢
    rw [hafter.textAt hplace, ← hbefore.textAt hplace]
    exact h
  | sqlite =>
    rw [hformat] at h
    dsimp only at h ⊢
    rw [hafter.table? (hkept trivial), ← hbefore.table? (hkept trivial)]
    exact h
  | mongodb =>
    rw [hformat] at h
    dsimp only at h ⊢
    rw [hafter.collected fun _ => hkept trivial, ← hbefore.collected fun _ => hkept trivial]
    exact h

/-- The ledger of an output that was opened. -/
theorem exists_ledger (h : (c.openRouter job directory tag).exec w = (.ok r, w')) :
    ∃ holds, holds .nothing w' ∧ Ledger c job directory tag w Resource.outputs r holds := by
  cases hformat : c.format with
  | json =>
    have hopened := FileExport.openRouter_eq_ok hformat h
    exact ⟨_, ⟨hopened.holds _, trivial⟩, FileExport.ledger hformat hopened (FileExport.fixed_true _)⟩
  | sqlite =>
    have hopened := TableExport.openRouter_eq_ok hformat h
    exact ⟨_, hopened.holds, TableExport.ledger hformat hopened⟩
  | mongodb =>
    have hopened := CollectionExport.openRouter_eq_ok hformat h
    exact ⟨_, hopened.holds, CollectionExport.ledger hformat hopened⟩

/-- Whether the output of a channel can be written: a file can if it can be opened, and a collection if its database
does not refuse. -/
def Takes (c : OutputConfig) (job : String) (directory : Path) (tag : String) (w : World) (ch : Channel) : Prop :=
  match c.format with
  | .json => w.files.Opens (FileExport.place directory job tag ch)
  | .sqlite => True
  | .mongodb => w.refusal (c.uri.getD "") = none

theorem exists_steadyLedger (h : (c.openRouter job directory tag).exec w = (.ok r, w')) :
    ∃ holds, holds .nothing w' ∧
      SteadyLedger c job directory tag w (c.Takes job directory tag w') r holds := by
  unfold Takes
  cases hformat : c.format with
  | json =>
    have hopened := FileExport.openRouter_eq_ok hformat h
    exact ⟨_, ⟨hopened.holds _, fun _ => rfl⟩, FileExport.steadyLedger hformat hopened⟩
  | sqlite =>
    have hopened := TableExport.openRouter_eq_ok hformat h
    exact ⟨_, hopened.holds, TableExport.steadyLedger hformat hopened⟩
  | mongodb =>
    have hopened := CollectionExport.openRouter_eq_ok hformat h
    exact ⟨_, hopened.holds, CollectionExport.steadyLedger hformat hopened⟩

end OutputConfig

/-! ## Handing over and closing -/

namespace Router

variable {σ : Type} {r : Router σ} {s : σ} {holds : Routed → σ → Prop} {l : Routed}

/-- Hands over the records of several calls and closes. -/
def routeAll (calls : List (List Transfer)) : Action (Router σ × σ) Unit := do
  calls.forM route
  close

theorem forM_route (calls : List (List Transfer)) :
    calls.forM route = (route calls.flatten : Action (Router σ × σ) Unit) := by
  induction calls with
  | nil => rfl
  | cons transfers rest ih =>
    unfold route at ih ⊢
    simp only [List.forM_eq_forM, List.forM_cons, List.flatten_cons, List.forM_append] at ih ⊢
    rw [ih]

theorem routeAll_eq_ok {calls : List (List Transfer)} {x : Router σ × σ} (hkeeps : Keeps r.exporters holds)
    (hl : holds l s) (h : (routeAll calls).exec (r, s) = (.ok (), x)) :
    ∃ t, holds (l.add calls.flatten) t ∧ r.closing.exec t = (.ok (), x.2) := by
  unfold routeAll at h
  rw [forM_route] at h
  obtain ⟨_, ⟨r', t⟩, hroute, hclose⟩ := Action.exec_bind_eq_ok h
  obtain ⟨rfl, hholds⟩ := route_eq_ok hkeeps hl hroute
  refine ⟨t, hholds, ?_⟩
  rw [exec_close] at hclose
  have hsame : (r.counted calls.flatten).closing = r.closing := rfl
  rw [hsame] at hclose
  rcases hclosing : r.closing.exec t with ⟨end', u⟩
  rw [hclosing] at hclose
  cases end' with
  | ok _ =>
    cases hclose
    rfl
  | error e => cases hclose

theorem routeAll_returns {calls : List (List Transfer)} {accepts : Channel → Prop} (hkeeps : Keeps r.exporters holds)
    (htakes : Takes r.exporters holds accepts) (hreturns : ∀ {l t}, holds l t → ∃ u, r.closing.exec t = (.ok (), u))
    (hl : holds l s) :
    (∃ x, (routeAll calls).exec (r, s) = (.ok (), x)) ↔ ∀ t ∈ calls.flatten, accepts t.channel := by
  rw [← route_returns_iff hkeeps htakes hl]
  unfold routeAll
  rw [forM_route]
  constructor
  · rintro ⟨x, hx⟩
    obtain ⟨_, y, hroute, -⟩ := Action.exec_bind_eq_ok hx
    exact ⟨y, hroute⟩
  · rintro ⟨⟨r', t⟩, hroute⟩
    obtain ⟨rfl, hholds⟩ := route_eq_ok hkeeps hl hroute
    obtain ⟨u, hu⟩ := hreturns hholds
    have hsame : (r.counted calls.flatten).closing = r.closing := rfl
    refine ⟨({ r.counted calls.flatten with release := [] }, u), ?_⟩
    rw [Action.exec_bind_ok hroute, exec_close, hsame, hu]

end Router

end DocFetch
