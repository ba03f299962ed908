import DocFetch.Proofs.Expression.Composing

/-! # What an expression looks at

The value of an expression is settled by the attributes that it references. An attribute that is not there is the
same as an empty one, and having no record at all differs from having no attributes only where an expression
references something.
-/

namespace DocFetch.Expression

variable {e : String} {segments : List Segment} {a b : Attributes}

/-- Attributes that give the same texts to names, where an absent one is empty. -/
def Agree (names : List String) (a b : Attributes) : Prop :=
  ∀ n ∈ names, (Assoc.get? n a).getD "" = (Assoc.get? n b).getD ""

theorem mem_references_iff {n : String} :
    n ∈ references segments ↔ ∃ ref, Segment.reference ref ∈ segments ∧ ref.name = n := by
  unfold references
  rw [List.mem_filterMap]
  constructor
  · intro h
    obtain ⟨segment, hmem, hname⟩ := h
    cases segment with
    | literal text => cases hname
    | reference ref => exact ⟨ref, hmem, Option.some.inj hname⟩
  · intro h
    obtain ⟨ref, hmem, hname⟩ := h
    exact ⟨.reference ref, hmem, congrArg some hname⟩

theorem references_ne_nil_iff : references segments ≠ [] ↔ ∃ ref, Segment.reference ref ∈ segments := by
  constructor
  · intro h
    obtain ⟨n, hn⟩ := List.exists_mem_of_ne_nil _ h
    obtain ⟨ref, hmem, -⟩ := mem_references_iff.mp hn
    exact ⟨ref, hmem⟩
  · intro h
    obtain ⟨ref, hmem⟩ := h
    apply List.ne_nil_of_mem
    exact mem_references_iff.mpr ⟨ref, hmem, rfl⟩

/-! ## Values that agree -/

theorem Reference.evaluate_congr {ref : Reference} (h : Agree [ref.name] a b) : ref.evaluate a = ref.evaluate b := by
  have hvalue := h ref.name (List.mem_singleton_self ref.name)
  unfold Reference.evaluate
  rw [hvalue]

theorem map_evaluate_congr (h : Agree (references segments) a b) :
    segments.map (Segment.evaluate a) = segments.map (Segment.evaluate b) := by
  apply List.map_congr_left
  intro segment hmem
  cases segment with
  | literal text => rfl
  | reference ref =>
    apply Reference.evaluate_congr
    intro n hn
    apply h
    rw [mem_references_iff]
    exact ⟨ref, hmem, (List.mem_singleton.mp hn).symm⟩

theorem run_congr (h : ∀ segments, compile e = .ok segments → Agree (references segments) a b) :
    run e (some a) = run e (some b) := by
  cases hcompile : compile e with
  | error error =>
    unfold run
    rw [hcompile]
  | ok segments => rw [run_some hcompile, run_some hcompile, map_evaluate_congr (h segments hcompile)]

/-- An expression has the same value at attributes that agree on its references. Without a record it fails as an
expression just if it references something, and otherwise it has the value that it has at any attributes. -/
theorem value_settled_by_references (h : compile e = .ok segments) :
    (∀ a b, Agree (references segments) a b →
      ∃ value, run e (some a) = .ok value ∧ run e (some b) = .ok value) ∧
    ((∃ error, run e none = .error error) ↔ ∃ ref, Segment.reference ref ∈ segments) ∧
    (∀ error, run e none = .error error → error.family = .expression) ∧
    ((∀ ref, Segment.reference ref ∉ segments) →
      ∃ value, run e none = .ok value ∧ ∀ a, run e (some a) = .ok value) := by
  refine ⟨?agree, ?fails, ?family, ?plain⟩
  case agree =>
    intro a b hagree
    refine ⟨_, run_some h a, ?_⟩
    rw [run_some h, map_evaluate_congr hagree]
  case fails => rw [run_none_error_iff h, references_ne_nil_iff]
  case family =>
    intro error herror
    rw [run_none h] at herror
    split at herror
    · cases herror
    · cases herror
      rfl
  case plain =>
    intro hnone
    have hempty : references segments = [] := by
      by_contra hne
      obtain ⟨ref, hmem⟩ := references_ne_nil_iff.mp hne
      exact hnone ref hmem
    refine ⟨_, by rw [run_none h, if_pos hempty], ?_⟩
    intro a
    have hagree : Agree (references segments) a [] := by
      rw [hempty]
      intro n hn
      cases hn
    rw [run_some h, map_evaluate_congr hagree]

/-- The second reference is an absent attribute here and an empty one there, and other attributes differ. -/
theorem value_settled_by_references_absent :
    let segments : List Segment := [.reference ⟨"a", [⟨.trim, []⟩]⟩, .literal "$", .reference ⟨"b", []⟩]
    compile "$\x7ba:trim()\x7d$$$\x7bb\x7d" = .ok segments ∧
      (∃ value, run "$\x7ba:trim()\x7d$$$\x7bb\x7d" (some [("a", " x ")]) = .ok value ∧
        run "$\x7ba:trim()\x7d$$$\x7bb\x7d" (some [("c", "y"), ("b", ""), ("a", " x ")]) = .ok value) ∧
      ∃ error, run "$\x7ba:trim()\x7d$$$\x7bb\x7d" none = .error error := by
  intro segments
  have hcompile : compile "$\x7ba:trim()\x7d$$$\x7bb\x7d" = .ok segments := compile_eq_ok_iff.2 (by decide +kernel)
  obtain ⟨hvalues, hfails, -⟩ := value_settled_by_references hcompile
  refine ⟨hcompile, ?_, hfails.mpr ⟨⟨"b", []⟩, by decide⟩⟩
  apply hvalues
  unfold Agree
  decide

end DocFetch.Expression
