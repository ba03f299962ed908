import DocFetch.Text.CaseTables

/-! # Upper and lower case

Full case mapping: a character may become several (ß becomes SS), and a capital sigma at the end of
a word becomes the final small sigma.
-/

namespace DocFetch.Text

private def mapCase (runs : List CaseRun) (expansions : List (Nat × List Nat)) (c : Char) :
    List Char :=
  match expansions.lookup c.toNat with
  | some codes => codes.map Char.ofNat
  | none =>
    match runs.find? (·.contains c.toNat) with
    | some run => [Char.ofNat (run.apply c.toNat)]
    | none => [c]

def upperChar (c : Char) : List Char := mapCase upperRuns upperExpansions c

def lowerChar (c : Char) : List Char := mapCase lowerRuns lowerExpansions c

def isCased (c : Char) : Bool := inRanges casedRanges c.toNat

def isCaseIgnorable (c : Char) : Bool := inRanges caseIgnorableRanges c.toNat

/-- Whether a cased letter comes first once ignorable characters are skipped. -/
def meetsCased (cs : List Char) : Bool :=
  match cs.dropWhile isCaseIgnorable with
  | c :: _ => isCased c
  | [] => false

/-- `before` holds the characters already passed, the nearest first. -/
def lowerAfter (before : List Char) : List Char → List Char
  | [] => []
  | c :: rest =>
    let lower :=
      if c = 'Σ' then [if meetsCased before && !meetsCased rest then 'ς' else 'σ'] else lowerChar c
    lower ++ lowerAfter (c :: before) rest

def toUpper (s : String) : String := String.ofList (s.toList.flatMap upperChar)

def toLower (s : String) : String := String.ofList (lowerAfter [] s.toList)

/-- Whether a run leads to code points, and never to the first of them. -/
def CaseRun.KeepsValid (run : CaseRun) : Prop :=
  0 < run.first + run.shift ∧
    (run.last + run.shift < 0xd800 ∨ 0xdfff < run.first + run.shift ∧ run.last + run.shift < 0x110000)

instance : DecidablePred CaseRun.KeepsValid := fun _ => inferInstanceAs (Decidable (_ ∧ _))

theorem lowerChar_of_expansion {c : Char} {codes : List Nat} (h : lowerExpansions.lookup c.toNat = some codes) :
    lowerChar c = codes.map Char.ofNat := by
  rw [lowerChar, mapCase, h]

theorem lowerChar_eq_self {c : Char} (hexpansion : lowerExpansions.lookup c.toNat = none)
    (hruns : ∀ run ∈ lowerRuns, run.contains c.toNat = false) : lowerChar c = [c] := by
  have hfind : lowerRuns.find? (·.contains c.toNat) = none :=
    List.find?_eq_none.mpr fun run hrun => by simp [hruns run hrun]
  rw [lowerChar, mapCase, hexpansion]
  dsimp only
  rw [hfind]

theorem lowerChar_of_lookup_eq_none {c : Char} (h : lowerExpansions.lookup c.toNat = none) :
    lowerChar c = [c] ∨
      ∃ run ∈ lowerRuns, run.contains c.toNat = true ∧ lowerChar c = [Char.ofNat (run.apply c.toNat)] := by
  rw [lowerChar, mapCase, h]
  dsimp only
  split
  · rename_i run hfind
    have hin := List.find?_some hfind
    exact .inr ⟨run, List.mem_of_find?_eq_some hfind, hin, rfl⟩
  · exact .inl rfl

theorem toNat_ofNat_apply {run : CaseRun} {n : Nat} (hvalid : run.KeepsValid) (hn : run.contains n = true) :
    (Char.ofNat (run.apply n)).toNat = run.apply n := by
  simp only [CaseRun.contains, Bool.and_eq_true, decide_eq_true_eq] at hn
  have hcode : (run.apply n).isValidChar := by
    unfold CaseRun.KeepsValid at hvalid
    unfold Nat.isValidChar CaseRun.apply
    simp only [Int.ofNat_eq_natCast]
    omega
  rw [Char.ofNat, dif_pos hcode]
  rfl

theorem keepsValid_of_mem : ∀ run ∈ lowerRuns, run.KeepsValid := by decide +kernel

theorem notMem_lowerChar {c d : Char} (hlow : d.toNat < 65) (h : c ≠ d) : d ∉ lowerChar c := by
  have hexpansions : ∀ e ∈ lowerExpansions, ∀ code ∈ e.2, 65 ≤ (Char.ofNat code).toNat := by decide +kernel
  have hruns : ∀ run ∈ lowerRuns, 65 ≤ run.first + run.shift := by decide +kernel
  intro hd
  cases hlookup : lowerExpansions.lookup c.toNat with
  | some codes =>
    obtain ⟨before, rest, hlist, -⟩ := List.lookup_eq_some_iff.mp hlookup
    rw [lowerChar_of_expansion hlookup] at hd
    obtain ⟨code, hcode, rfl⟩ := List.mem_map.mp hd
    have hhigh := hexpansions (c.toNat, codes) (by simp [hlist]) code hcode
    omega
  | none =>
    rcases lowerChar_of_lookup_eq_none hlookup with hself | ⟨run, hrun, hin, hlower⟩
    · rw [hself, List.mem_singleton] at hd
      exact h hd.symm
    · rw [hlower, List.mem_singleton] at hd
      rw [hd, toNat_ofNat_apply (keepsValid_of_mem run hrun) hin] at hlow
      have hhigh := hruns run hrun
      simp only [CaseRun.contains, Bool.and_eq_true, decide_eq_true_eq] at hin
      unfold CaseRun.apply at hlow
      simp only [Int.ofNat_eq_natCast] at hlow
      omega

example : toUpper "straße" = "STRASSE" := by decide +kernel
example : toLower "ΟΔΟΣ Σ" = "οδος σ" := by decide +kernel

end DocFetch.Text
