import DocFetch.Proofs.World.Events

/-! # Faults of files and databases

Whatever goes wrong while records are reported is a fault of the platform, so that it is never taken for a fault
of a configuration.
-/

namespace DocFetch

/-- A fault of the platform. -/
def Failure.IsPlatform : Failure → Prop
  | platform _ _ => True
  | _ => False

theorem Failure.IsPlatform.isKindOf {e : Failure} (h : e.IsPlatform) (family : ErrorFamily) :
    e.isKindOf family = false := by
  cases e with
  | platform fault message => rfl
  | _ => exact h.elim

/-! ## Actions -/

namespace Action

variable {σ τ α β : Type} {P : Failure → Prop}

/-- How an action may fail. -/
def Fails (P : Failure → Prop) (a : Action σ α) : Prop := ∀ s t e, a.exec s = (.error e, t) → P e

theorem Fails.ofExcept {r : Except Failure α} (h : ∀ e, r = .error e → P e) :
    (ofExcept r : Action σ α).Fails P := by
  intro s t e hexec
  cases hexec
  exact h e rfl

theorem Fails.pure (v : α) : (Pure.pure v : Action σ α).Fails P := nofun

theorem Fails.get : (MonadState.get : Action σ σ).Fails P := nofun

theorem Fails.set (s : σ) : (MonadStateOf.set s : Action σ PUnit).Fails P := nofun

theorem Fails.modify (f : σ → σ) : (modify f : Action σ PUnit).Fails P := nofun

theorem Fails.lift (m : StateM σ α) : (liftM m : Action σ α).Fails P := nofun

theorem Fails.bind {a : Action σ α} {f : α → Action σ β} (ha : a.Fails P) (hf : ∀ v, (f v).Fails P) :
    (a >>= f).Fails P := by
  intro s t e h
  rcases hexec : a.exec s with ⟨r, u⟩
  cases r with
  | error e' =>
    rw [exec_bind_error hexec] at h
    cases h
    exact ha _ _ _ hexec
  | ok v =>
    rw [exec_bind_ok hexec] at h
    exact hf v _ _ _ h

theorem Fails.discard {a : Action σ α} (h : a.Fails P) : (discard a).Fails P := h.bind fun _ => .pure ()

theorem Fails.zoom {get : σ → τ} {set : σ → τ → σ} {a : Action τ α} (h : a.Fails P) : (a.zoom get set).Fails P := by
  intro s t e hexec
  rw [exec_zoom, Prod.mk.injEq] at hexec
  exact h _ _ e (Prod.ext hexec.1 rfl)

end Action

/-! ## Files and databases -/

namespace FileTree

variable {t : FileTree} {p : Path} {e : Failure}

theorem isPlatform_makeDirectories (h : t.makeDirectories p = .error e) : e.IsPlatform := by
  have hfrom {t : FileTree} {above : Path} {names : List String}
      (h : t.makeDirectoriesFrom above names = .error e) : e.IsPlatform := by
    induction names generalizing t above with
    | nil => cases h
    | cons n rest ih =>
      unfold makeDirectoriesFrom at h
      dsimp only at h
      split at h
      · exact ih h
      split at h
      · cases h
        trivial
      split at h
      · exact ih h
      · cases h
        trivial
      · exact ih h
  unfold makeDirectories at h
  split at h
  · cases h
    trivial
  · exact hfrom h

theorem isPlatform_openDatabase (h : t.openDatabase p = .error e) : e.IsPlatform := by
  unfold openDatabase at h
  repeat' split at h
  all_goals cases h
  all_goals trivial

theorem isPlatform_database (h : t.database p = .error e) : e.IsPlatform := by
  unfold database at h
  split at h
  all_goals cases h
  all_goals trivial

end FileTree

theorem Transaction.fails_unlessHeld {σ : Type} (held : Prop) [Decidable held] :
    (Action.ofExcept (unlessHeld held) : Action σ Unit).Fails Failure.IsPlatform := by
  refine .ofExcept fun e h => ?_
  unfold unlessHeld at h
  split at h <;> cases h
  trivial

theorem Transaction.fails_save {α : Type} {f : Database → Except Failure (α × Database)}
    (h : ∀ d e, f d = .error e → e.IsPlatform) : (save f).Fails Failure.IsPlatform := by
  refine .bind (.bind .get fun t => .bind (.ofExcept fun e => h t.database e) fun _ => ?_) fun a => ?_
  · exact .bind (fails_unlessHeld _) fun _ => .bind (.set _) fun _ => .pure _
  · exact .bind (.bind .get fun t => .bind (fails_unlessHeld _) fun _ => .set _) fun _ => .pure a

namespace Storage

theorem fails_connect (path : Path) : (connect path).Fails Failure.IsPlatform := by
  have hprepare (key : Path) : (prepare key).Fails Failure.IsPlatform := by
    unfold prepare
    refine .bind .get fun s => .bind (.ofExcept fun e => FileTree.isPlatform_makeDirectories) fun made => ?_
    refine .bind (.set _) fun _ => .bind (.ofExcept fun e => FileTree.isPlatform_openDatabase) fun opened => ?_
    refine .bind (.set _) fun _ => .bind (.ofExcept fun e => FileTree.isPlatform_database) fun d => ?_
    exact .bind (Transaction.fails_unlessHeld _) fun _ => .set _
  unfold connect Connections.openAt
  refine .bind .get fun s => .bind ?_ fun _ => .bind (.modify _) fun _ => .pure _
  split
  · exact .pure _
  · exact .bind (hprepare _) fun _ => .pure _

theorem fails_transact {α : Type} {path : Path} {work : Action Transaction α} (h : work.Fails Failure.IsPlatform) :
    (transact path work).Fails Failure.IsPlatform := by
  unfold transact
  refine .bind (fails_connect path).discard fun _ => .bind .get fun s => ?_
  refine .bind (.ofExcept fun e => FileTree.isPlatform_database) fun d => ?_
  exact .bind (.set _) fun _ => .ofExcept fun e he => h _ _ e (Prod.ext he rfl)

theorem fails_session {α : Type} {path : Path} {f : Database → Except Failure (α × Database)}
    (h : ∀ d e, f d = .error e → e.IsPlatform) : (session path f).Fails Failure.IsPlatform :=
  fails_transact (Transaction.fails_save h)

end Storage

theorem Provenance.fails_report (path : Path) (timestamp location : String) (record : Record) :
    (report path timestamp (.text receiveKind) record (.text location)).Fails Failure.IsPlatform := by
  rw [report_eq]
  refine Storage.fails_session fun d e h => ?_
  cases hevents : d.events with
  | none =>
    unfold reporting at h
    rw [Database.eventTable, hevents] at h
    cases h
    trivial
  | some t =>
    rw [reporting_eq hevents] at h
    cases h

end DocFetch
