import DocFetch.Failure

/-! # Actions

An action works on a state and may fail. What it did before it failed stays done.
-/

namespace DocFetch

abbrev Action (σ α : Type) := ExceptT Failure (StateM σ) α

namespace Action

variable {σ τ α : Type}

def exec (a : Action σ α) (s : σ) : Except Failure α × σ := StateT.run (ExceptT.run a) s

/-- The action with a given effect. -/
def ofFunction (f : σ → Except Failure α × σ) : Action σ α := ExceptT.mk (fun s => f s)

@[simp] theorem exec_ofFunction (f : σ → Except Failure α × σ) (s : σ) :
    (ofFunction f).exec s = f s := rfl

def ofExcept (r : Except Failure α) : Action σ α := ofFunction fun s => (r, s)

def fail (f : Failure) : Action σ α := ofExcept (.error f)

/-- How the action ends, as a value. -/
def attempt (a : Action σ α) : Action σ (Except Failure α) :=
  ofFunction fun s => let (r, s) := a.exec s; (.ok r, s)

/-- Does `last` however `a` ends; a failure of `last` hides that of `a`. -/
def ensuring (a : Action σ α) (last : Action σ Unit) : Action σ α := do
  let r ← a.attempt
  last
  ofExcept r

/-- The action on a part of a larger state. -/
def zoom (get : σ → τ) (set : σ → τ → σ) (a : Action τ α) : Action σ α :=
  ofFunction fun s => let (r, t) := a.exec (get s); (r, set s t)

@[simp] theorem exec_pure (a : α) (s : σ) : (pure a : Action σ α).exec s = (.ok a, s) := rfl

theorem exec_bind {β : Type} (a : Action σ α) (f : α → Action σ β) (s : σ) :
    (a >>= f).exec s =
      match a.exec s with
      | (.ok v, t) => (f v).exec t
      | (.error e, t) => (.error e, t) := by
  change StateT.run (ExceptT.run (a >>= f)) s = _
  rw [ExceptT.run_bind, StateT.run_bind]
  unfold exec
  rcases StateT.run (ExceptT.run a) s with ⟨r, t⟩
  cases r with
  | ok v => rfl
  | error e => rfl

theorem exec_bind_ok {β : Type} {a : Action σ α} {s t : σ} {v : α} (h : a.exec s = (.ok v, t))
    (f : α → Action σ β) : (a >>= f).exec s = (f v).exec t := by
  rw [exec_bind, h]

theorem exec_bind_error {β : Type} {a : Action σ α} {s t : σ} {e : Failure}
    (h : a.exec s = (.error e, t)) (f : α → Action σ β) : (a >>= f).exec s = (.error e, t) := by
  rw [exec_bind, h]

theorem exec_bind_pure {β : Type} (a : Action σ α) (g : α → β) (s : σ) :
    (a >>= fun v => pure (g v)).exec s = ((a.exec s).1.map g, (a.exec s).2) := by
  rw [exec_bind]
  rcases a.exec s with ⟨r, t⟩
  cases r with
  | ok v => rfl
  | error e => rfl

theorem exec_bind_eq_ok {β : Type} {a : Action σ α} {f : α → Action σ β} {s t : σ} {v : β}
    (h : (a >>= f).exec s = (.ok v, t)) : ∃ w u, a.exec s = (.ok w, u) ∧ (f w).exec u = (.ok v, t) := by
  rw [exec_bind] at h
  rcases ha : a.exec s with ⟨r, u⟩
  rw [ha] at h
  cases r with
  | ok w => exact ⟨w, u, rfl, h⟩
  | error e => cases h

theorem exec_bind_eq_error {β : Type} {a : Action σ α} {f : α → Action σ β} {s t : σ} {e : Failure}
    (h : (a >>= f).exec s = (.error e, t)) :
    a.exec s = (.error e, t) ∨ ∃ w u, a.exec s = (.ok w, u) ∧ (f w).exec u = (.error e, t) := by
  rw [exec_bind] at h
  rcases ha : a.exec s with ⟨r, u⟩
  rw [ha] at h
  cases r with
  | ok w => exact .inr ⟨w, u, rfl, h⟩
  | error e' =>
    cases h
    exact .inl rfl

@[simp] theorem exec_get (s : σ) : (get : Action σ σ).exec s = (.ok s, s) := rfl

@[simp] theorem exec_set (s t : σ) : (set t : Action σ PUnit).exec s = (.ok ⟨⟩, t) := rfl

@[simp] theorem exec_modify (f : σ → σ) (s : σ) : (modify f : Action σ PUnit).exec s = (.ok ⟨⟩, f s) := rfl

@[simp] theorem exec_discard (a : Action σ α) (s : σ) :
    (discard a).exec s = ((a.exec s).1.map fun _ => (), (a.exec s).2) := by
  change ((fun _ => ()) <$> a).exec s = _
  rw [map_eq_pure_bind]
  exact exec_bind_pure a (fun _ => ()) s

theorem exec_discard_eq_ok {a : Action σ α} {s t : σ} (h : (discard a).exec s = (.ok (), t)) :
    ∃ v, a.exec s = (.ok v, t) := by
  rw [exec_discard] at h
  rcases ha : a.exec s with ⟨r, u⟩
  rw [ha] at h
  cases r with
  | ok v =>
    cases h
    exact ⟨v, rfl⟩
  | error e => cases h

@[simp] theorem exec_lift (m : StateM σ α) (s : σ) :
    (liftM m : Action σ α).exec s = (.ok (m.run s).1, (m.run s).2) := rfl

@[simp] theorem exec_ofExcept (r : Except Failure α) (s : σ) :
    (ofExcept r : Action σ α).exec s = (r, s) := rfl

theorem exec_bind_ofExcept {β : Type} (a : Action σ α) (g : α → Except Failure β) (s : σ) :
    (a >>= fun v => ofExcept (g v)).exec s = ((a.exec s).1 >>= g, (a.exec s).2) := by
  rw [exec_bind]
  rcases a.exec s with ⟨r, t⟩
  cases r with
  | ok v => rfl
  | error e => rfl

theorem exec_ofExcept_bind_eq_ok {β : Type} {r : Except Failure α} {f : α → Action σ β} {s t : σ} {v : β}
    (h : (ofExcept r >>= f).exec s = (.ok v, t)) : ∃ w, r = .ok w ∧ (f w).exec s = (.ok v, t) := by
  cases r with
  | ok w => exact ⟨w, rfl, h⟩
  | error e => cases h

@[simp] theorem exec_fail (e : Failure) (s : σ) :
    (fail e : Action σ α).exec s = (.error e, s) := rfl

@[simp] theorem exec_attempt (a : Action σ α) (s : σ) :
    a.attempt.exec s = (.ok (a.exec s).1, (a.exec s).2) := rfl

theorem exec_attempt_bind_pure {β : Type} {a : Action σ α} {r : Except Failure α} {s t : σ} (h : a.exec s = (r, t))
    (g : Except Failure α → β) : (a.attempt >>= fun r => pure (g r)).exec s = (.ok (g r), t) := by
  rw [exec_bind_pure, exec_attempt, h]
  rfl

/-- The last part works on what the first one left, and its failure hides how the first one ended. -/
theorem exec_ensuring (a : Action σ α) (last : Action σ Unit) (s : σ) :
    (a.ensuring last).exec s =
      ((last.exec (a.exec s).2).1 >>= fun _ => (a.exec s).1, (last.exec (a.exec s).2).2) := by
  unfold ensuring
  rw [exec_bind_ok (exec_attempt a s), exec_bind]
  rcases last.exec (a.exec s).2 with ⟨r, t⟩
  cases r <;> rfl

theorem exec_ensuring_eq_ok_iff {a : Action σ α} {last : Action σ Unit} {s t : σ} {v : α} :
    (a.ensuring last).exec s = (.ok v, t) ↔ ∃ u, a.exec s = (.ok v, u) ∧ last.exec u = (.ok (), t) := by
  unfold ensuring
  rw [exec_bind_ok (exec_attempt a s)]
  constructor
  · intro h
    obtain ⟨_, u, hlast, hend⟩ := exec_bind_eq_ok h
    rw [exec_ofExcept, Prod.mk.injEq] at hend
    obtain ⟨ha, rfl⟩ := hend
    exact ⟨_, Prod.ext ha rfl, hlast⟩
  · rintro ⟨u, ha, hlast⟩
    rw [ha, exec_bind_ok hlast]
    rfl

@[simp] theorem exec_zoom (get : σ → τ) (set : σ → τ → σ) (a : Action τ α) (s : σ) :
    (a.zoom get set).exec s = ((a.exec (get s)).1, set s (a.exec (get s)).2) := rfl

theorem exec_zoom_eq_ok {get : σ → τ} {set : σ → τ → σ} {a : Action τ α} {s t : σ} {v : α}
    (h : (a.zoom get set).exec s = (.ok v, t)) : ∃ u, a.exec (get s) = (.ok v, u) ∧ t = set s u := by
  rw [exec_zoom, Prod.mk.injEq] at h
  obtain ⟨hvalue, hstate⟩ := h
  exact ⟨(a.exec (get s)).2, Prod.ext hvalue rfl, hstate.symm⟩

theorem zoom_attempt {get : σ → τ} {set : σ → τ → σ} (a : Action τ α) :
    a.attempt.zoom get set = (a.zoom get set).attempt := rfl

theorem exec_eq_ok_of_any {a : Action σ α} {s : σ} {P : α → Bool} (h : (a.exec s).1.toOption.any P = true) :
    ∃ v t, a.exec s = (.ok v, t) ∧ P v = true := by
  rcases ha : a.exec s with ⟨r, t⟩
  rw [ha] at h
  cases r with
  | ok v => exact ⟨v, t, rfl, h⟩
  | error e => cases h

theorem ext {a b : Action σ α} (h : ∀ s, a.exec s = b.exec s) : a = b := funext h

/-- A part of a state that can be read and replaced by itself. -/
structure Lens (get : σ → τ) (set : σ → τ → σ) : Prop where
  get_set : ∀ s t, get (set s t) = t
  set_get : ∀ s, set s (get s) = s
  set_set : ∀ s t u, set (set s t) u = set s u

namespace Lens

variable {get : σ → τ} {set : σ → τ → σ}

theorem zoom_pure (h : Lens get set) (v : α) : (pure v : Action τ α).zoom get set = pure v :=
  Action.ext fun s => by rw [exec_zoom, exec_pure, h.set_get, exec_pure]

theorem zoom_ofExcept (h : Lens get set) (r : Except Failure α) :
    (ofExcept r : Action τ α).zoom get set = ofExcept r :=
  Action.ext fun s => by rw [exec_zoom, exec_ofExcept, h.set_get, exec_ofExcept]

theorem zoom_bind {β : Type} (h : Lens get set) (a : Action τ α) (f : α → Action τ β) :
    (a >>= f).zoom get set = a.zoom get set >>= fun v => (f v).zoom get set := by
  refine Action.ext fun s => ?_
  rcases ha : a.exec (get s) with ⟨r, t⟩
  have hzoom : (a.zoom get set).exec s = (r, set s t) := by rw [exec_zoom, ha]
  cases r with
  | error e => rw [exec_zoom, exec_bind_error ha, exec_bind_error hzoom]
  | ok v => rw [exec_zoom, exec_bind_ok ha, exec_bind_ok hzoom, exec_zoom, h.get_set, h.set_set]

theorem zoom_forM (h : Lens get set) (f : α → Action τ PUnit) (l : List α) :
    (l.forM f).zoom get set = l.forM fun x => (f x).zoom get set := by
  induction l with
  | nil => exact h.zoom_pure PUnit.unit
  | cons x rest ih =>
    simp only [List.forM_eq_forM, List.forM_cons] at ih ⊢
    rw [h.zoom_bind, ih]

end Lens

end Action

end DocFetch
