import DocFetch.Store.Basic

/-! # Documents read from stored data

What a store holds may be any data. A document is read from it where the data give a content and two integers in
range, and reading anything else fails as decoding does.
-/

namespace DocFetch

variable {α ρ : Type}

/-- An error of just this family. -/
def Failure.IsOf (family : ErrorFamily) (f : Failure) : Prop := ∃ e, f = .fetch e ∧ e.family = family

namespace Document

/-! ## Numbers -/

/-- Whether integers can be the numbers of a document. -/
def InRange (cas expiry : Int) : Prop := (0 ≤ cas ∧ cas < 2 ^ 64) ∧ 0 ≤ expiry ∧ expiry < 2 ^ 32

/-- A document whose numbers are two integers in range. -/
structure Numbered (d : Document α) (cas expiry : Int) : Prop where
  cas_eq : d.cas = .int cas
  expiry_eq : d.expiry = .int expiry
  inRange : InRange cas expiry

variable {content : α} {c e : Int}

theorem inRange_int_iff {n upper : Int} : (Number.int n).inRange upper = true ↔ 0 ≤ n ∧ n ≤ upper := by
  simp [Number.inRange]

theorem make_int (h : InRange c e) (content : α) :
    make content (.int c) (.int e) = .ok { content, cas := .int c, expiry := .int e } := by
  obtain ⟨hc, he⟩ := h
  have hcas : (Number.int c).inRange maxCas = true := by
    rw [inRange_int_iff]
    unfold maxCas
    omega
  have hexpiry : (Number.int e).inRange maxExpiry = true := by
    rw [inRange_int_iff]
    unfold maxExpiry
    omega
  simp only [make, Number.ofValue?, hcas, hexpiry]
  rfl

theorem make_int_of_not_inRange (h : ¬ InRange c e) (content : α) :
    ∃ reason, make content (.int c) (.int e) = .error (.refused reason) := by
  by_cases hcas : (Number.int c).inRange maxCas = true
  · have hexpiry : (Number.int e).inRange maxExpiry = false := by
      rw [← Bool.not_eq_true, inRange_int_iff]
      rw [inRange_int_iff] at hcas
      unfold maxExpiry
      unfold maxCas at hcas
      unfold InRange at h
      omega
    refine ⟨.expiryOutOfRange (Number.int e).text, ?_⟩
    simp only [make, Number.ofValue?, hcas, hexpiry]
    rfl
  · refine ⟨.casOutOfRange (Number.int c).text, ?_⟩
    simp only [make, Number.ofValue?, hcas]
    rfl

theorem checkedInt_eq_ok_iff {id field : String} {v : Value} {upper n : Int} :
    checkedInt id field v upper = .ok n ↔ v = .int n ∧ 0 ≤ n ∧ n ≤ upper := by
  cases v with
  | int m =>
    simp only [checkedInt, Value.int.injEq]
    split
    · simp only [Except.ok.injEq]
      constructor
      · intro h
        omega
      · intro h
        exact h.1
    · simp only [reduceCtorEq, false_iff]
      omega
  | _ => simp [checkedInt]

theorem isOf_checkedInt {id field : String} {v : Value} {upper : Int} {f : Failure}
    (h : checkedInt id field v upper = .error f) : f.IsOf .transcoding := by
  unfold checkedInt at h
  split at h
  · split at h
    · cases h
    · cases h
      exact ⟨_, rfl, rfl⟩
  · cases h
    exact ⟨_, rfl, rfl⟩

/-! ## Stored numbers -/

variable {id : String} {cas expiry : Value} {d : Document α}

theorem ofStored_int (h : InRange c e) (id : String) (content : α) :
    ofStored id content (.int c) (.int e) = .ok { content, cas := .int c, expiry := .int e } := by
  have hcas : checkedInt id "cas" (.int c) maxCas = .ok c := by
    have hrange := h.1
    rw [checkedInt_eq_ok_iff]
    refine ⟨rfl, ?_⟩
    unfold maxCas
    omega
  have hexpiry : checkedInt id "expiry" (.int e) maxExpiry = .ok e := by
    have hrange := h.2
    rw [checkedInt_eq_ok_iff]
    refine ⟨rfl, ?_⟩
    unfold maxExpiry
    omega
  unfold ofStored
  rw [hcas, hexpiry]
  exact make_int h content

theorem ofStored_of_not_inRange (h : ∀ c e, cas = .int c → expiry = .int e → ¬ InRange c e) (id : String)
    (content : α) : ∃ f, ofStored id content cas expiry = .error f ∧ f.IsOf .transcoding := by
  unfold ofStored
  cases hcas : checkedInt id "cas" cas maxCas with
  | error f => exact ⟨f, rfl, isOf_checkedInt hcas⟩
  | ok c =>
    cases hexpiry : checkedInt id "expiry" expiry maxExpiry with
    | error f => exact ⟨f, rfl, isOf_checkedInt hexpiry⟩
    | ok e =>
      rw [checkedInt_eq_ok_iff] at hcas hexpiry
      exfalso
      apply h c e hcas.1 hexpiry.1
      unfold maxCas at hcas
      unfold maxExpiry at hexpiry
      unfold InRange
      omega

end Document

/-! ## Reads -/

/-- How a read ends by what is stored under an id, if anything is: with a document that `Reads` finds in it, or else
as decoding fails. -/
structure Settled (Reads : ρ → Document α → Prop) (absent : Failure) (stored : Option ρ)
    (r : Except Failure (Document α)) : Prop where
  document : ∀ d, r = .ok d ↔ ∃ x ∈ stored, Reads x d
  missing : stored = none → r = .error absent
  malformed : stored ≠ none → ∀ f, r = .error f → f.IsOf .transcoding

namespace Settled

variable {Reads : ρ → Document α → Prop} {absent : Failure} {x : ρ}

theorem nothing : Settled Reads absent none (.error absent) where
  document d := by simp
  missing _ := rfl
  malformed h := absurd rfl h

theorem failed {f : Failure} (hnot : ∀ d, ¬ Reads x d) (hf : f.IsOf .transcoding) :
    Settled Reads absent (some x) (.error f) where
  document d := by simp [hnot]
  missing h := by cases h
  malformed _ g hg := by
    cases hg
    exact hf

theorem ofStored {id : String} {content : α} {cas expiry : Value}
    (hreads : ∀ d, Reads x d ↔ d.content = content ∧
      ∃ c e, cas = .int c ∧ expiry = .int e ∧ d.Numbered c e) :
    Settled Reads absent (some x) (Document.ofStored id content cas expiry) := by
  by_cases h : ∃ c e, cas = .int c ∧ expiry = .int e ∧ Document.InRange c e
  · obtain ⟨c, e, rfl, rfl, hrange⟩ := h
    rw [Document.ofStored_int hrange]
    refine ⟨?document, by simp, by simp⟩
    case document =>
      intro d
      simp only [Option.mem_some_iff, exists_eq_left', hreads]
      constructor
      · intro hd
        cases hd
        exact ⟨rfl, c, e, rfl, rfl, rfl, rfl, hrange⟩
      · intro hd
        obtain ⟨rfl, c', e', hc, he, hnumbered⟩ := hd
        cases hc
        cases he
        obtain ⟨content, cas, expiry⟩ := d
        cases hnumbered.cas_eq
        cases hnumbered.expiry_eq
        rfl
  · have hnot : ∀ c e, cas = .int c → expiry = .int e → ¬ Document.InRange c e := by
      intro c e hc he hrange
      exact h ⟨c, e, hc, he, hrange⟩
    obtain ⟨f, hf, hkind⟩ := Document.ofStored_of_not_inRange hnot id content
    rw [hf]
    apply failed _ hkind
    intro d hd
    obtain ⟨-, c, e, hc, he, hnumbered⟩ := (hreads d).mp hd
    exact hnot c e hc he hnumbered.inRange

end Settled

end DocFetch
