import DocFetch.Proofs.Export.Calls
import DocFetch.Proofs.Export.Opening

/-! # Closing again

A router that was closed keeps no callbacks. Closing it again does nothing where its exporters go by streams or by
a client. It fails, and changes nothing either, where they go by a connection that is closed.
-/

namespace DocFetch

namespace Router

variable {σ : Type} {r : Router σ} {s t : σ} {holds : Routed → σ → Prop} {l : Routed}

/-- The router and its state after calls that are made one after another, however each ends. -/
def performAll (calls : List Call) (x : Router σ × σ) : Router σ × σ :=
  calls.foldl (fun x c => (c.perform.exec x).2) x

/-- Writing that fails leaves the state as it was. -/
def Restores (exporters : List (Channel × Exporter σ)) : Prop :=
  ∀ {c : Channel} {e : Exporter σ} {record : Record} {s t : σ} {f : Failure},
    Assoc.get? c exporters = some e → (e.write record).exec s = (.error f, t) → t = s

theorem exec_route_holds (hkeeps : Keeps r.exporters holds) (hrestores : Restores r.exporters) (hl : holds l s)
    (ts : List Transfer) :
    ∃ handed, ((route ts).exec (r, s)).2.1 = r.counted handed ∧
      holds (l.add handed) ((route ts).exec (r, s)).2.2 := by
  induction ts generalizing r s l with
  | nil => exact ⟨[], r.counted_nil.symm, by rwa [l.add_nil]⟩
  | cons t rest ih =>
    obtain ⟨e, he⟩ := hkeeps.exporter t.channel
    have hdeliver := exec_deliver he t.record s
    rw [route_cons]
    rcases hwrite : (e.write t.record).exec s with ⟨ended, u⟩
    rw [hwrite] at hdeliver
    cases ended with
    | error f =>
      rw [Action.exec_bind_error hdeliver, hrestores he hwrite]
      exact ⟨[], r.counted_nil.symm, by rwa [l.add_nil]⟩
    | ok _ =>
      rw [Action.exec_bind_ok hdeliver]
      obtain ⟨handed, hrouter, hholds⟩ := ih (r := r.counted [t]) hkeeps hrestores (hkeeps.write he hl hwrite)
      exact ⟨t :: handed, by rw [hrouter, ← counted_cons], by rwa [Routed.add_cons]⟩

theorem performAll_route_holds (hkeeps : Keeps r.exporters holds) (hrestores : Restores r.exporters) (hl : holds l s)
    (calls : List (List Transfer)) :
    ∃ handed, (performAll (calls.map .route) (r, s)).1 = r.counted handed ∧
      holds (l.add handed) (performAll (calls.map .route) (r, s)).2 := by
  induction calls generalizing r s l with
  | nil => exact ⟨[], r.counted_nil.symm, by rwa [l.add_nil]⟩
  | cons ts rest ih =>
    obtain ⟨handed, hrouter, hholds⟩ := exec_route_holds hkeeps hrestores hl ts
    change ∃ handed, (performAll (rest.map .route) ((route ts).exec (r, s)).2).1 = _ ∧
      holds _ (performAll (rest.map .route) ((route ts).exec (r, s)).2).2
    rcases hroute : ((route ts).exec (r, s)).2 with ⟨r', s'⟩
    rw [hroute] at hrouter hholds
    obtain rfl : r' = r.counted handed := hrouter
    obtain ⟨more, hrouter', hholds'⟩ := ih (r := r.counted handed) hkeeps hrestores hholds
    exact ⟨handed ++ more, by rw [hrouter', counted_append], by rwa [Routed.add_append]⟩

/-- Closing that leaves everything as it is can be repeated. -/
theorem performAll_close {y : Router σ × σ} {ended : Except Failure Unit} (h : close.exec y = (ended, y)) (n : Nat) :
    performAll (List.replicate n .close) y = y := by
  induction n with
  | zero => rfl
  | succ k ih =>
    have hfirst : (Call.close.perform.exec y).2 = y := congrArg Prod.snd h
    rw [List.replicate_succ, performAll, List.foldl_cons, hfirst]
    exact ih

/-- The router without callbacks. -/
def spent (r : Router σ) : Router σ := { r with release := [] }

theorem exec_close_again {ended : Except Failure Unit} (h : r.spent.closing.exec t = (ended, t)) :
    close.exec (r.spent, t) = (ended, r.spent, t) := by
  rw [exec_close, h]
  cases ended <;> rfl

end Router

/-! ## Streams -/

namespace FileExport

variable {w w' : World} {n m : Nat} {r : Record} {directory : Path} {job tag : String} {rt : Router World}

/-- Whether no stream is open under a number. -/
def IsShut (w : World) (n : Nat) : Prop := ∀ s, w.streams[n]? = some s → s.isOpen = false

theorem modify_shut (h : IsShut w n) : w.streams.modify n shut = w.streams := by
  refine List.ext_getElem? fun m => ?_
  rw [List.getElem?_modify]
  by_cases hm : n = m
  · subst hm
    cases hs : w.streams[n]? with
    | none => rfl
    | some s =>
      have hshut : shut s = s := by rw [shut, ← h s hs]
      simp [hshut]
  · simp [hm]

theorem exec_write_none (hs : w.streams[n]? = none) (r : Record) : (write n r).exec w = (.ok (), w) := by
  unfold write
  rw [Action.exec_bind_ok (Action.exec_get w), hs]
  rfl

theorem exec_flush_none (hs : w.streams[n]? = none) : (flush n).exec w = (.ok (), w) := by
  unfold flush
  rw [Action.exec_bind_ok (Action.exec_get w), hs]
  rfl

theorem exec_finish_of_isShut (h : IsShut w n) : (finish n).exec w = (.ok (), w) := by
  have hflush : (flush n).exec w = (.ok (), w) := by
    cases hs : w.streams[n]? with
    | none => exact exec_flush_none hs
    | some s => rw [exec_flush hs, if_neg (by rw [h s hs]; exact Bool.false_ne_true)]
  have hclose : (changeStream n shut).exec w = (.ok (), w) := by
    change (Except.ok (), { w with streams := w.streams.modify n shut }) = _
    rw [modify_shut h]
  unfold finish close
  rw [Action.exec_bind_ok hflush, Action.exec_bind_ok hflush]
  exact hclose

theorem isShut_stepped {f : Stream → Stream} (hf : ∀ s, s.isOpen = false → (f s).isOpen = false)
    (h : IsShut w m) (files : FileTree) (n : Nat) : IsShut (stepped w files n f) m := by
  intro s hs
  change (w.streams.modify n f)[m]? = some s at hs
  rw [List.getElem?_modify] at hs
  obtain ⟨s', hs', rfl⟩ := Option.map_eq_some_iff.mp hs
  split
  · exact hf s' (h s' hs')
  · exact h s' hs'

theorem isShut_shut (w : World) (files : FileTree) (n : Nat) : IsShut (stepped w files n shut) n := by
  intro s hs
  change (w.streams.modify n shut)[n]? = some s at hs
  rw [List.getElem?_modify_eq] at hs
  obtain ⟨s', -, rfl⟩ := Option.map_eq_some_iff.mp hs
  rfl

theorem isShut_flush (h : (flush n).exec w = (.ok (), w')) (hm : IsShut w m) : IsShut w' m := by
  cases hs : w.streams[n]? with
  | none =>
    cases (exec_flush_none hs).symm.trans h
    exact hm
  | some s =>
    rw [exec_flush hs] at h
    split at h
    · split at h
      · cases h
        exact isShut_stepped (f := flushed) (fun _ hclosed => hclosed) hm _ n
      · cases h
    · cases h
      exact hm

theorem isShut_finish (h : (finish n).exec w = (.ok (), w')) : IsShut w' n ∧ ∀ m, IsShut w m → IsShut w' m := by
  obtain ⟨_, w₁, hflush, hclose⟩ := Action.exec_bind_eq_ok h
  obtain ⟨_, w₂, hflush', hclosed⟩ := Action.exec_bind_eq_ok hclose
  obtain rfl : w' = stepped w₂ w₂.files n shut := by
    cases hclosed
    rfl
  refine ⟨isShut_shut w₂ w₂.files n, fun m hm => ?_⟩
  exact isShut_stepped (f := shut) (fun _ _ => rfl) (isShut_flush hflush' (isShut_flush hflush hm)) _ n

variable {ns : List Nat}

theorem isShut_finishAll (h : (ns.forM finish).exec w = (.ok (), w')) :
    (∀ n ∈ ns, IsShut w' n) ∧ ∀ m, IsShut w m → IsShut w' m := by
  induction ns generalizing w with
  | nil =>
    cases h
    exact ⟨nofun, fun _ hm => hm⟩
  | cons n rest ih =>
    obtain ⟨_, w₁, hfirst, hrest⟩ := Action.exec_bind_eq_ok h
    obtain ⟨hself, hkept⟩ := isShut_finish hfirst
    obtain ⟨hall, hkept'⟩ := ih hrest
    exact ⟨List.forall_mem_cons.mpr ⟨hkept' n hself, hall⟩, fun m hm => hkept' m (hkept m hm)⟩

theorem exec_finishAll_of_isShut (h : ∀ n ∈ ns, IsShut w n) : (ns.forM finish).exec w = (.ok (), w) := by
  induction ns with
  | nil => rfl
  | cons n rest ih =>
    obtain ⟨hn, hrest⟩ := List.forall_mem_cons.mp h
    rw [List.forM_eq_forM, List.forM_cons, Action.exec_bind_ok (exec_finish_of_isShut hn)]
    exact ih hrest

namespace Opened

theorem closing_eq_numbers (h : Opened directory job tag w rt w') :
    rt.closing = (Channel.all.map fun ch => w.streams.length + ch.number).forM finish := by
  rw [h.closing_eq, List.forM_eq_forM, List.forM_eq_forM, List.forM_map]

theorem exec_closing_again (h : Opened directory job tag w rt w') {v u : World}
    (hclosing : rt.closing.exec v = (.ok (), u)) : rt.spent.closing.exec u = (.ok (), u) := by
  have hspent : rt.spent = rt := by rw [Router.spent, ← h.release]
  rw [hspent, h.closing_eq_numbers]
  rw [h.closing_eq_numbers] at hclosing
  exact exec_finishAll_of_isShut (isShut_finishAll hclosing).1

theorem restores (h : Opened directory job tag w rt w') : Router.Restores rt.exporters := by
  intro ch e r s t f he hwrite
  rw [h.get?_exporters ch] at he
  cases he
  change (FileExport.write _ r).exec s = _ at hwrite
  cases hs : s.streams[w.streams.length + ch.number]? with
  | none =>
    rw [exec_write_none hs] at hwrite
    cases hwrite
  | some stream =>
    rw [exec_write hs] at hwrite
    split at hwrite
    · cases hwrite
    · split at hwrite
      · cases hwrite
      · cases hwrite
        rfl

end Opened

end FileExport

/-! ## Connections -/

namespace TableExport

variable {w w' : World} {n : Nat} {c : ExportConnection} {directory : Path} {job tag : String} {rt : Router World}
  {path : Path} {before : Channel → List ExportRow} {l : Routed}

/-- What a connection that is closed answers. -/
def closedConnection : Failure := .platform .sqlUsage "Cannot operate on a closed database."

theorem exec_connection_closed (hc : w.exports[n]? = some c) (hclosed : c.isOpen = false) :
    (connection n).exec w = (.error closedConnection, w) := by
  unfold connection
  rw [Action.exec_bind_ok (Action.exec_get w), hc]
  dsimp only
  rw [hclosed]
  rfl

theorem snd_exec_connection (n : Nat) (w : World) : ((connection n).exec w).2 = w := by
  unfold connection
  rw [Action.exec_bind_ok (Action.exec_get w)]
  cases w.exports[n]? with
  | none => rfl
  | some c => cases hopen : c.isOpen <;> simp [hopen]

/-- The world after a connection was closed. -/
def disconnected (w : World) (n : Nat) : World := stepped w w.files n fun c => { c with isOpen := false, pending := [] }

namespace Opened

theorem restores (h : Opened directory job w rt w') : Router.Restores rt.exporters := by
  intro ch e r s t f he hwrite
  rw [h.get?_exporters ch] at he
  cases he
  change (TableExport.insert _ ch.name r).exec s = _ at hwrite
  unfold TableExport.insert at hwrite
  rw [Action.exec_bind, Action.exec_discard, snd_exec_connection] at hwrite
  cases hconnection : ((TableExport.connection w.exports.length).exec s).1 with
  | ok c =>
    rw [hconnection] at hwrite
    cases hwrite
  | error e =>
    rw [hconnection] at hwrite
    cases hwrite
    rfl

/-- Closing a run to tables again fails at the connection. -/
theorem exec_closing_again (h : Opened directory job w rt w') {v : World}
    (hl : Holds w.exports.length path before l v) :
    ∃ u, rt.closing.exec v = (.ok (), u) ∧ rt.spent.closing.exec u = (.error closedConnection, u) := by
  obtain ⟨v₁, hclosing, ⟨c, hc, -, -, -⟩, -, -⟩ := h.exec_closing hl
  refine ⟨disconnected v₁ w.exports.length, hclosing, ?_⟩
  have hclosed := getElem?_stepped hc v₁.files fun c => { c with isOpen := false, pending := [] }
  have hcommit : (commit w.exports.length).exec (disconnected v₁ w.exports.length) =
      (.error closedConnection, disconnected v₁ w.exports.length) :=
    Action.exec_bind_error (exec_connection_closed hclosed rfl) _
  unfold Router.closing Router.spent
  rw [h.exporters]
  exact Action.exec_bind_error (Action.exec_bind_error (Action.exec_bind_error hcommit _) _) _

end Opened

end TableExport

/-! ## Clients -/

namespace CollectionExport

variable {w w' : World} {uri database job : String} {rt : Router World}

namespace Opened

theorem restores (h : Opened uri database job w rt w') : Router.Restores rt.exporters := by
  intro ch e r s t f he hwrite
  rw [h.get?_exporters ch] at he
  cases he
  rw [exec_write] at hwrite
  split at hwrite
  · cases hwrite
    rfl
  · cases hwrite

theorem exec_closing_again (h : Opened uri database job w rt w') (u : World) :
    rt.spent.closing.exec u = (.ok (), u) := by
  unfold Router.closing Router.spent
  rw [h.exporters]
  rfl

end Opened

end CollectionExport

/-! ## Outputs of any format -/

namespace OutputConfig

variable {c : OutputConfig} {job tag : String} {directory : Path} {w w' : World} {r : Router World}

/-- How closing ends when the output was closed before. -/
def closedAgain (c : OutputConfig) : Except Failure Unit :=
  if c.format = .sqlite then .error TableExport.closedConnection else .ok ()

theorem exec_closing_again (h : (c.openRouter job directory tag).exec w = (.ok r, w')) :
    ∃ holds, holds .nothing w' ∧ Router.Keeps r.exporters holds ∧ Router.Restores r.exporters ∧
      ∀ {l : Routed} {v : World}, holds l v →
        ∃ u, r.closing.exec v = (.ok (), u) ∧ r.spent.closing.exec u = (c.closedAgain, u) := by
  unfold closedAgain
  cases hformat : c.format with
  | json =>
    have hopened := FileExport.openRouter_eq_ok hformat h
    have hledger := FileExport.steadyLedger hformat hopened
    refine ⟨_, ⟨hopened.holds _, fun _ => rfl⟩, hledger.keeps, hopened.restores, fun hl => ?_⟩
    obtain ⟨u, hu⟩ := hledger.returns hl
    exact ⟨u, hu, hopened.exec_closing_again hu⟩
  | sqlite =>
    have hopened := TableExport.openRouter_eq_ok hformat h
    have hledger : Ledger c job directory tag w Resource.outputs r _ := TableExport.ledger hformat hopened
    exact ⟨_, hopened.holds, hledger.keeps, hopened.restores, hopened.exec_closing_again⟩
  | mongodb =>
    have hopened := CollectionExport.openRouter_eq_ok hformat h
    have hledger : Ledger c job directory tag w Resource.outputs r _ := CollectionExport.ledger hformat hopened
    refine ⟨_, hopened.holds, hledger.keeps, hopened.restores, fun _ => ?_⟩
    obtain ⟨u, hu, -⟩ := hopened.exec_closing _
    exact ⟨u, hu, hopened.exec_closing_again u⟩

/-- However its routing went, the first closing of a router returns, and another one changes nothing. -/
theorem exec_close_routed (h : (c.openRouter job directory tag).exec w = (.ok r, w')) (calls : List (List Transfer)) :
    ∃ y, Router.close.exec (Router.performAll (calls.map .route) (r, w')) = (.ok (), y) ∧ y.1.release = [] ∧
      y.1.counts = (Router.performAll (calls.map .route) (r, w')).1.counts ∧
      Router.close.exec y = (c.closedAgain, y) := by
  obtain ⟨holds, hholds, hkeeps, hrestores, hclosing⟩ := exec_closing_again h
  obtain ⟨handed, hrouter, hl⟩ := Router.performAll_route_holds hkeeps hrestores hholds calls
  rcases hrouted : Router.performAll (calls.map .route) (r, w') with ⟨r', v⟩
  rw [hrouted] at hrouter hl
  obtain rfl : r' = r.counted handed := hrouter
  obtain ⟨u, hfirst, hagain⟩ := hclosing hl
  refine ⟨((r.counted handed).spent, u), ?_, rfl, rfl, Router.exec_close_again hagain⟩
  have hsame : (r.counted handed).closing = r.closing := rfl
  rw [Router.exec_close, hsame, hfirst]
  rfl

/-- After the first closing, any number of further ones leave everything as the first left it. They return, except
where the output goes by a connection. -/
theorem close_again (h : (c.openRouter job directory tag).exec w = (.ok r, w')) (calls : List (List Transfer)) :
    ∃ y, Router.close.exec (Router.performAll (calls.map .route) (r, w')) = (.ok (), y) ∧ y.1.release = [] ∧
      y.1.counts = (Router.performAll (calls.map .route) (r, w')).1.counts ∧
      ∀ n, Router.close.exec (Router.performAll (List.replicate n .close) y) = (c.closedAgain, y) := by
  obtain ⟨y, hfirst, hrelease, hcounts, hagain⟩ := exec_close_routed h calls
  refine ⟨y, hfirst, hrelease, hcounts, fun n => ?_⟩
  rw [Router.performAll_close hagain, hagain]

/-- A record for the channel of what was found. -/
def sampleTransfers : List Transfer := [⟨.success, ⟨"a", [], Text.encodeUtf8 "content"⟩⟩]

theorem close_again_lines :
    ∃ r w', (openRouter {} "j" ⟨"/", ["out"]⟩ "t").exec {} = (.ok r, w') ∧
      ∃ y, Router.close.exec (Router.performAll [.route sampleTransfers] (r, w')) = (.ok (), y) ∧
        ∀ n, Router.close.exec (Router.performAll (List.replicate n .close) y) = (.ok (), y) := by
  obtain ⟨r, w', hopen, -⟩ := Action.exec_eq_ok_of_any (P := fun _ => true)
    (show ((openRouter {} "j" ⟨"/", ["out"]⟩ "t").exec {}).1.toOption.any _ = true by decide +kernel)
  obtain ⟨y, hfirst, -, -, hagain⟩ := close_again hopen [sampleTransfers]
  exact ⟨r, w', hopen, y, hfirst, hagain⟩

/-- A database that was closed fails to close again. -/
theorem close_twice_database :
    ∃ r w', (openRouter { format := .sqlite } "j" ⟨"/", ["out"]⟩ "t").exec {} = (.ok r, w') ∧
      ∃ y, Router.close.exec (Router.performAll [.route sampleTransfers] (r, w')) = (.ok (), y) ∧
        (Router.close.exec y).1 = .error (.platform .sqlUsage "Cannot operate on a closed database.") := by
  obtain ⟨r, w', hopen, -⟩ := Action.exec_eq_ok_of_any (P := fun _ => true)
    (show ((openRouter { format := .sqlite } "j" ⟨"/", ["out"]⟩ "t").exec {}).1.toOption.any _ = true by decide +kernel)
  obtain ⟨y, hfirst, -, -, hagain⟩ := exec_close_routed hopen [sampleTransfers]
  exact ⟨r, w', hopen, y, hfirst, congrArg Prod.fst hagain⟩

end OutputConfig

end DocFetch
