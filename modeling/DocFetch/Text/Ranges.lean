/-! # Sets of code points as ordered ranges -/

namespace DocFetch.Text

/-- Whether `n` lies in one of the inclusive ranges, which are in ascending order. -/
def inRanges : List (Nat × Nat) → Nat → Bool
  | [], _ => false
  | (first, last) :: rest, n => if n < first then false else n ≤ last || inRanges rest n

theorem exists_mem_of_inRanges {ranges : List (Nat × Nat)} {n : Nat} (h : inRanges ranges n = true) :
    ∃ r ∈ ranges, r.1 ≤ n ∧ n ≤ r.2 := by
  induction ranges with
  | nil => cases h
  | cons r rest ih =>
    rw [inRanges] at h
    split at h
    · cases h
    · rename_i hfirst
      rcases Bool.or_eq_true_iff.mp h with hlast | hrest
      · exact ⟨r, List.mem_cons_self, Nat.not_lt.mp hfirst, of_decide_eq_true hlast⟩
      · obtain ⟨r', hr', hn⟩ := ih hrest
        exact ⟨r', List.mem_cons_of_mem r hr', hn⟩

theorem inRanges_of_mem {ranges : List (Nat × Nat)} (hsorted : ranges.Pairwise fun r r' => r.1 ≤ r'.1)
    {r : Nat × Nat} (hr : r ∈ ranges) {n : Nat} (hfirst : r.1 ≤ n) (hlast : n ≤ r.2) : inRanges ranges n = true := by
  induction ranges with
  | nil => cases hr
  | cons q rest ih =>
    rw [inRanges]
    rcases List.mem_cons.mp hr with rfl | hrest
    · rw [if_neg (by omega), decide_eq_true hlast, Bool.true_or]
    · have hq : q.1 ≤ r.1 := List.rel_of_pairwise_cons hsorted hrest
      rw [if_neg (by omega), ih hsorted.of_cons hrest, Bool.or_true]

end DocFetch.Text
