import DocFetch.Action
import Mathlib.Order.Defs.Unbundled

/-! # Where actions lead

An action moves along a relation when it leads there from every state, however it ends.
-/

namespace DocFetch.Action

variable {σ τ α β : Type} {R : σ → σ → Prop}

def Moves (R : σ → σ → Prop) (a : Action σ α) : Prop := ∀ s, R s (a.exec s).2

theorem Moves.of_exec {a : Action σ α} (h : a.Moves R) {s t : σ} {r : Except Failure α}
    (hexec : a.exec s = (r, t)) : R s t := by
  have hs := h s
  rwa [hexec] at hs

theorem Moves.mono {S : σ → σ → Prop} {a : Action σ α} (h : a.Moves R) (hRS : ∀ s t, R s t → S s t) :
    a.Moves S := fun s => hRS s _ (h s)

theorem Moves.ofExcept [Std.Refl R] (r : Except Failure α) : (ofExcept r : Action σ α).Moves R :=
  fun s => Std.Refl.refl s

theorem Moves.pure [Std.Refl R] (v : α) : (Pure.pure v : Action σ α).Moves R := fun s => Std.Refl.refl s

theorem Moves.fail [Std.Refl R] (e : Failure) : (fail e : Action σ α).Moves R := fun s => Std.Refl.refl s

theorem Moves.bind [IsTrans σ R] {a : Action σ α} {f : α → Action σ β} (ha : a.Moves R)
    (hf : ∀ v, (f v).Moves R) : (a >>= f).Moves R := by
  intro s
  rcases hexec : a.exec s with ⟨r, t⟩
  cases r with
  | error e =>
    rw [exec_bind_error hexec]
    exact ha.of_exec hexec
  | ok v =>
    rw [exec_bind_ok hexec]
    exact IsTrans.trans _ _ _ (ha.of_exec hexec) (hf v t)

theorem Moves.get_bind {f : σ → Action σ β} (hf : ∀ s, R s ((f s).exec s).2) :
    (get >>= f : Action σ β).Moves R := by
  intro s
  rw [exec_bind_ok (exec_get s)]
  exact hf s

theorem Moves.get [Std.Refl R] : (MonadState.get : Action σ σ).Moves R := fun s => Std.Refl.refl s

theorem leads_ofExcept_bind [Std.Refl R] {r : Except Failure α} {f : α → Action σ β} {s : σ}
    (hf : ∀ v, r = .ok v → R s ((f v).exec s).2) : R s ((ofExcept r >>= f).exec s).2 := by
  cases r with
  | error e => exact Std.Refl.refl s
  | ok v => exact hf v rfl

theorem leads_set_bind [IsTrans σ R] {f : PUnit → Action σ β} {s t : σ} (hset : R s t)
    (hf : R t ((f ⟨⟩).exec t).2) : R s ((set t >>= f : Action σ β).exec s).2 :=
  IsTrans.trans _ _ _ hset hf

theorem Moves.modify {f : σ → σ} (hf : ∀ s, R s (f s)) : (modify f : Action σ PUnit).Moves R := hf

theorem Moves.lift {m : StateM σ α} (h : ∀ s, R s (m.run s).2) : (liftM m : Action σ α).Moves R := h

theorem Moves.attempt {a : Action σ α} (h : a.Moves R) : a.attempt.Moves R := h

theorem Moves.discard {a : Action σ α} (h : a.Moves R) : (discard a).Moves R := by
  intro s
  rw [exec_discard]
  exact h s

theorem Moves.forM [IsTrans σ R] [Std.Refl R] {f : α → Action σ PUnit} {l : List α}
    (h : ∀ x ∈ l, (f x).Moves R) : (l.forM f).Moves R := by
  induction l with
  | nil => exact .pure _
  | cons x rest ih =>
    exact (h x List.mem_cons_self).bind fun _ => ih fun y hy => h y (List.mem_cons_of_mem x hy)

theorem exec_attempts_cons (f : α → Action σ Unit) (x : α) (l : List α) (s : σ) :
    ((x :: l).forM fun y => discard (f y).attempt).exec s =
      (l.forM fun y => discard (f y).attempt).exec ((f x).exec s).2 := by
  have hfirst : (discard (f x).attempt).exec s = (.ok (), ((f x).exec s).2) := by
    rw [exec_discard, exec_attempt]
    rfl
  rw [List.forM_eq_forM, List.forM_cons, exec_bind_ok hfirst]

theorem Moves.zoom {S : τ → τ → Prop} {get : σ → τ} {set : σ → τ → σ} {a : Action τ α} (h : a.Moves S)
    (hset : ∀ s t, S (get s) t → R s (set s t)) : (a.zoom get set).Moves R :=
  fun s => hset s _ (h (get s))

end DocFetch.Action
