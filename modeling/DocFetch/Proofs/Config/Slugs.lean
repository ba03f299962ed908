import DocFetch.Proofs.Config.Listing
import Mathlib.Data.List.Chain

/-! # Slugs of slugs

A job is found by the stem of its own configuration file where its slug is a slug of itself. That is so for all
names but those with a dotted capital I: its lower case has a mark of its own, which is no letter and is replaced
when the slug is read as a name.
-/

namespace DocFetch

namespace Text

/-! ## Sets of code points -/

/-- Code points as the bits of a number, so that sets of them are compared by operations on numbers. -/
def bits (codes : List Nat) : Nat := codes.foldr (fun n b => 1 <<< n ||| b) 0

def rangeBits (ranges : List (Nat × Nat)) : Nat :=
  ranges.foldr (fun r b => (2 ^ (r.2 + 1 - r.1) - 1) <<< r.1 ||| b) 0

theorem testBit_bits {codes : List Nat} {n : Nat} : (bits codes).testBit n = true ↔ n ∈ codes := by
  induction codes with
  | nil => simp [bits]
  | cons m codes ih =>
    have hbits : bits (m :: codes) = 1 <<< m ||| bits codes := rfl
    rw [hbits, Nat.testBit_or, Bool.or_eq_true, ih, List.mem_cons, Nat.one_shiftLeft, Nat.testBit_two_pow,
      decide_eq_true_eq, eq_comm]

theorem testBit_rangeBits {ranges : List (Nat × Nat)} {n : Nat} :
    (rangeBits ranges).testBit n = true ↔ ∃ r ∈ ranges, r.1 ≤ n ∧ n ≤ r.2 := by
  induction ranges with
  | nil => simp [rangeBits]
  | cons r ranges ih =>
    have hbits : rangeBits (r :: ranges) = (2 ^ (r.2 + 1 - r.1) - 1) <<< r.1 ||| rangeBits ranges := rfl
    have hfirst : ((2 ^ (r.2 + 1 - r.1) - 1) <<< r.1).testBit n = true ↔ r.1 ≤ n ∧ n ≤ r.2 := by
      rw [Nat.testBit_shiftLeft, Nat.testBit_two_pow_sub_one, Bool.and_eq_true, decide_eq_true_eq, decide_eq_true_eq]
      omega
    rw [hbits, Nat.testBit_or, Bool.or_eq_true, ih, hfirst, List.exists_mem_cons_iff]

theorem testBit_of_land_eq_self {a b n : Nat} (h : a &&& b = a) (hn : a.testBit n = true) : b.testBit n = true := by
  rw [← h, Nat.testBit_and, Bool.and_eq_true] at hn
  exact hn.2

theorem not_testBit_of_land_eq_zero {a b n : Nat} (h : a &&& b = 0) (hn : a.testBit n = true) :
    ¬ b.testBit n = true := by
  intro hb
  have hboth : (a &&& b).testBit n = true := by rw [Nat.testBit_and, hn, hb, Bool.and_self]
  rw [h, Nat.zero_testBit] at hboth
  cases hboth

/-! ## Lower case -/

def letterBits : Nat := rangeBits alphanumericRanges

theorem testBit_letterBits {c : Char} : letterBits.testBit c.toNat = true ↔ isAlphanumeric c = true := by
  have hchain : alphanumericRanges.IsChain fun r r' => r.1 ≤ r'.1 := by decide +kernel
  rw [letterBits, testBit_rangeBits, isAlphanumeric]
  constructor
  · rintro ⟨r, hr, hfirst, hlast⟩
    exact inRanges_of_mem (List.isChain_iff_pairwise.mp hchain) hr hfirst hlast
  · exact exists_mem_of_inRanges

/-- The code points of a run. -/
def CaseRun.codes (run : CaseRun) : List Nat :=
  List.range' run.first ((run.last - run.first) / run.step + 1) run.step

theorem CaseRun.mem_codes {run : CaseRun} {n : Nat} (h : run.contains n = true) : n ∈ run.codes := by
  simp only [contains, Bool.and_eq_true, decide_eq_true_eq, beq_iff_eq] at h
  obtain ⟨⟨hfirst, hlast⟩, hstep⟩ := h
  have hmul : run.step * ((n - run.first) / run.step) = n - run.first :=
    Nat.mul_div_cancel' (Nat.dvd_of_mod_eq_zero hstep)
  have hle : (n - run.first) / run.step ≤ (run.last - run.first) / run.step := Nat.div_le_div_right (by omega)
  exact List.mem_range'.mpr ⟨(n - run.first) / run.step, by omega, by omega⟩

/-- The code points that are not their own lower case. -/
def movedCodes : List Nat := lowerRuns.flatMap CaseRun.codes ++ lowerExpansions.map Prod.fst

/-- Whether a run leads from letters to letters or holds none, and leads to nothing that has a lower case. -/
def CaseRun.settles (run : CaseRun) : Bool :=
  let images := bits (run.codes.map run.apply)
  (images &&& letterBits == images || bits run.codes &&& letterBits == 0) && images &&& bits movedCodes == 0

theorem lowerRuns_settle : ∀ run ∈ lowerRuns, run.settles = true := by decide +kernel

theorem lowerChar_of_notMem {c : Char} (h : c.toNat ∉ movedCodes) : lowerChar c = [c] := by
  rw [movedCodes, List.mem_append, not_or] at h
  obtain ⟨hruns, hexpansions⟩ := h
  apply lowerChar_eq_self
  · rw [List.lookup_eq_none_iff]
    intro e he
    rw [bne_iff_ne]
    intro heq
    exact hexpansions (heq ▸ List.mem_map_of_mem he)
  · intro run hrun
    rw [← Bool.not_eq_true]
    intro hin
    exact hruns (List.mem_flatMap.mpr ⟨run, hrun, CaseRun.mem_codes hin⟩)

/-- The lower case of a letter is letters that are their own lower case, but for that of the dotted capital I. -/
theorem settled_of_mem_lowerChar {c d : Char} (hc : c ≠ 'İ') (hletter : isAlphanumeric c = true)
    (hd : d ∈ lowerChar c) : isAlphanumeric d = true ∧ lowerChar d = [d] := by
  have hnone : lowerExpansions.lookup c.toNat = none := by
    have hne : (c.toNat == 304) = false := by
      rw [beq_eq_false_iff_ne]
      exact fun h => hc (Char.toNat_inj.mp h)
    rw [lowerExpansions, List.lookup_cons, hne]
    rfl
  rcases lowerChar_of_lookup_eq_none hnone with hself | ⟨run, hrun, hin, hlower⟩
  · rw [hself, List.mem_singleton] at hd
    subst hd
    exact ⟨hletter, hself⟩
  · rw [hlower, List.mem_singleton] at hd
    subst hd
    have hsettles := lowerRuns_settle run hrun
    rw [CaseRun.settles, Bool.and_eq_true, Bool.or_eq_true, beq_iff_eq, beq_iff_eq, beq_iff_eq] at hsettles
    have hcode := toNat_ofNat_apply (keepsValid_of_mem run hrun) hin
    have hfrom : (bits run.codes).testBit c.toNat = true := testBit_bits.mpr (CaseRun.mem_codes hin)
    have hto : (bits (run.codes.map run.apply)).testBit (Char.ofNat (run.apply c.toNat)).toNat = true := by
      rw [hcode]
      exact testBit_bits.mpr (List.mem_map_of_mem (CaseRun.mem_codes hin))
    constructor
    · rw [← testBit_letterBits] at hletter ⊢
      rcases hsettles.1 with hletters | hnone
      · exact testBit_of_land_eq_self hletters hto
      · exact absurd hletter (not_testBit_of_land_eq_zero hnone hfrom)
    · apply lowerChar_of_notMem
      rw [← testBit_bits]
      exact not_testBit_of_land_eq_zero hsettles.2 hto

end Text

/-! ## Slugs -/

theorem slugChar_of_mem_slugChar {c d : Char} (hc : c ≠ 'İ') (hd : d ∈ slugChar c) : slugChar d = [d] := by
  rw [slugChar] at hd
  split at hd
  · rename_i hletter
    obtain ⟨hletter', hlower⟩ := Text.settled_of_mem_lowerChar hc hletter hd
    rw [slugChar, if_pos hletter', hlower]
  · rw [List.mem_singleton] at hd
    subst hd
    rfl

theorem slugChar_dotted : slugChar 'İ' = ['i', '\u0307'] := by rfl

theorem slugChar_dotMark : slugChar '\u0307' = ['-'] := by rfl

theorem dotted_notMem_slug (name : String) : 'İ' ∉ (slug name).toList := by
  intro h
  obtain ⟨c, -, hc⟩ := exists_mem_of_mem_slug h
  by_cases hdotted : c = 'İ'
  · rw [hdotted, slugChar_dotted] at hc
    exact absurd hc (by decide)
  · have hself := slugChar_of_mem_slugChar hdotted hc
    rw [slugChar_dotted] at hself
    exact absurd hself (by decide)

theorem mark_mem_slug_iff {name : String} : '\u0307' ∈ (slug name).toList ↔ 'İ' ∈ name.toList := by
  constructor
  · intro h
    obtain ⟨c, hmem, hc⟩ := exists_mem_of_mem_slug h
    by_cases hdotted : c = 'İ'
    · exact hdotted ▸ hmem
    · have hself := slugChar_of_mem_slugChar hdotted hc
      rw [slugChar_dotMark] at hself
      exact absurd hself (by decide)
  · intro h
    have hmark : '\u0307' ∈ name.toList.flatMap slugChar :=
      List.mem_flatMap.mpr ⟨'İ', h, by rw [slugChar_dotted]; decide⟩
    obtain ⟨before, after, hbefore, hafter, hstrip⟩ := Text.exists_strip (· = '-') (name.toList.flatMap slugChar)
    rw [slug, String.toList_ofList, slugChars]
    rw [hstrip, List.mem_append, List.mem_append] at hmark
    rcases hmark with hin | hin | hin
    · exact absurd (hbefore _ hin) (by decide)
    · exact hin
    · exact absurd (hafter _ hin) (by decide)

theorem slug_slug_of_notMem {name : String} (h : 'İ' ∉ name.toList) : slug (slug name) = slug name := by
  have hself : ∀ d ∈ (slug name).toList, slugChar d = [d] := by
    intro d hd
    obtain ⟨c, hmem, hc⟩ := exists_mem_of_mem_slug hd
    exact slugChar_of_mem_slugChar (fun hdotted => h (hdotted ▸ hmem)) hc
  have hchars : (slug name).toList.flatMap slugChar = (slug name).toList := by
    rw [List.flatMap_congr hself, List.flatMap_singleton']
  conv_lhs => rw [slug, slugChars, hchars, slug, String.toList_ofList, slugChars, Text.stripWhile_stripWhile]
  rfl

/-- A slug is its own slug just if the name holds no dotted capital I. -/
theorem slug_slug_eq_iff {name : String} : slug (slug name) = slug name ↔ 'İ' ∉ name.toList := by
  constructor
  · intro h hdotted
    have hmark := mark_mem_slug_iff.mpr hdotted
    rw [← h, mark_mem_slug_iff] at hmark
    exact dotted_notMem_slug name hmark
  · exact slug_slug_of_notMem

/-! ## Files of jobs -/

namespace Layout

variable (l : Layout) {name name' : String}

theorem jobFile_inj : l.jobFile name = l.jobFile name' ↔ slug name = slug name' := by
  rw [jobFile, jobFile, Path.child, Path.child, Path.mk.injEq, List.append_right_inj, List.singleton_inj, jobFileName,
    jobFileName, String.append_left_inj]
  exact and_iff_right rfl

theorem stem_jobFile (h : slug name ≠ "") : (l.jobFile name).stem = slug name :=
  l.jobs.stem_child h (e := "yaml".toList) (by decide) (by decide)

theorem stem_jobFile_of_empty (h : slug name = "") : (l.jobFile name).stem = ".yaml" := by
  rw [jobFile, jobFileName, h, Path.stem, Path.name, Path.child, List.getLastD_concat]
  decide

/-- The slug of a name is the slug of itself just if the name holds no dotted capital I. The stem of the configuration
file of a job leads to this file just if, besides, the slug is not empty, and then it loads what the name loads. -/
theorem stem_names_job (name : String) :
    (slug (slug name) = slug name ↔ 'İ' ∉ name.toList) ∧
      (l.jobFile (l.jobFile name).stem = l.jobFile name ↔ slug name ≠ "" ∧ 'İ' ∉ name.toList) ∧
      (slug name ≠ "" → 'İ' ∉ name.toList →
        ∀ files c, l.loadJob files (l.jobFile name).stem = .ok c ↔ l.loadJob files name = .ok c) := by
  have hfile : l.jobFile (l.jobFile name).stem = l.jobFile name ↔ slug name ≠ "" ∧ 'İ' ∉ name.toList := by
    by_cases hslug : slug name = ""
    · rw [stem_jobFile_of_empty l hslug, jobFile_inj, hslug]
      exact iff_of_false (by decide +kernel) fun h => h.1 rfl
    · rw [stem_jobFile l hslug, jobFile_inj, slug_slug_eq_iff]
      exact (and_iff_right hslug).symm
  refine ⟨slug_slug_eq_iff, hfile, fun hslug hdotted files c => ?_⟩
  rw [loadJob, loadJob, JobConfig.load_eq_ok_iff, JobConfig.load_eq_ok_iff, hfile.mpr ⟨hslug, hdotted⟩]

/-- A job that is named by a dotted capital I: the stem of its configuration file is a name with another slug. -/
theorem stem_of_dotted :
    slug "İ" = "i\u0307" ∧ slug (slug "İ") = "i" ∧
      (sampleLayout.jobFile "İ").stem = "i\u0307" ∧ sampleLayout.jobFile "i\u0307" ≠ sampleLayout.jobFile "İ" := by
  decide +kernel

end Layout

end DocFetch
