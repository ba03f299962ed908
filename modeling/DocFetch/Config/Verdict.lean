import DocFetch.Failure

/-! # Verdicts on configurations

Checking a configuration goes through its fields in order and collects what is wrong with each. A rule on
the whole is asked only when every field is good. A failure that is no verdict ends the check at once.
-/

namespace DocFetch

inductive Verdict (α : Type)
  | good (value : α)
  | bad (issues : List Issue)
  | abort (failure : Failure)

namespace Verdict

variable {α β : Type}

def map (f : α → β) : Verdict α → Verdict β
  | good a => good (f a)
  | bad issues => bad issues
  | abort failure => abort failure

/-- Both verdicts, the issues of the first before those of the second. -/
def both (x : Verdict α) (y : Verdict β) : Verdict (α × β) :=
  match x, y with
  | abort f, _ => abort f
  | _, abort f => abort f
  | bad i, bad j => bad (i ++ j)
  | bad i, good _ => bad i
  | good _, bad j => bad j
  | good a, good b => good (a, b)

/-- Verdict with the location of its issues below `place`. -/
def within (place : String) : Verdict α → Verdict α
  | bad issues => bad (issues.map fun i => { i with location := place :: i.location })
  | v => v

def issue (kind : String) : Verdict α := bad [⟨[], kind, none⟩]

/-- Asks a rule that gives the text of what it finds wrong. -/
def check (rule : α → Option String) : Verdict α → Verdict α
  | good a =>
    match rule a with
    | some message => bad [⟨[], "value_error", some ("Value error, " ++ message)⟩]
    | none => good a
  | v => v

def toExcept (model : String) : Verdict α → Except Failure α
  | good a => .ok a
  | bad issues => .error (.invalid model issues)
  | abort failure => .error failure

theorem map_eq_good {f : α → β} {x : Verdict α} {b : β} :
    x.map f = good b ↔ ∃ a, x = good a ∧ f a = b := by
  cases x <;> simp [map]

theorem both_eq_good {x : Verdict α} {y : Verdict β} {a : α} {b : β} :
    x.both y = good (a, b) ↔ x = good a ∧ y = good b := by
  cases x <;> cases y <;> simp [both]

theorem within_eq_good {place : String} {x : Verdict α} {a : α} : x.within place = good a ↔ x = good a := by
  cases x <;> simp [within]

theorem check_eq_good {rule : α → Option String} {x : Verdict α} {a : α} :
    x.check rule = good a ↔ x = good a ∧ rule a = none := by
  cases x with
  | good b =>
    rw [check, good.injEq]
    constructor
    · intro h
      split at h
      · cases h
      · cases h
        exact ⟨rfl, by assumption⟩
    · intro ⟨hb, hrule⟩
      rw [hb, hrule]
  | bad | abort => simp [check]

theorem toExcept_eq_ok {model : String} {x : Verdict α} {a : α} : x.toExcept model = .ok a ↔ x = good a := by
  cases x <;> simp [toExcept]

end Verdict

end DocFetch
