import DocFetch.Text.Ranges

/-! # Blanks

The white space of Unicode together with the four information separators U+001C to U+001F.
Trimming takes blanks off both ends.
-/

namespace DocFetch.Text

def blankRanges : List (Nat × Nat) :=
  [(9,13), (28,32), (133,133), (160,160), (5760,5760), (8192,8202), (8232,8233), (8239,8239),
   (8287,8287), (12288,12288)]

def isBlank (c : Char) : Bool := inRanges blankRanges c.toNat

def dropBlanks (cs : List Char) : List Char := cs.dropWhile isBlank

/-- Drops `p`-characters from both ends. -/
def stripWhile (p : Char → Bool) (cs : List Char) : List Char :=
  ((cs.dropWhile p).reverse.dropWhile p).reverse

def trimChars (cs : List Char) : List Char := stripWhile isBlank cs

def trim (s : String) : String := String.ofList (trimChars s.toList)

theorem dropBlanks_blanks {b : List Char} (hb : ∀ c ∈ b, isBlank c = true) (cs : List Char) :
    dropBlanks (b ++ cs) = dropBlanks cs := List.dropWhile_append_of_pos hb

theorem dropBlanks_cons {c : Char} (hc : isBlank c = false) (cs : List Char) :
    dropBlanks (c :: cs) = c :: cs := by
  simp [dropBlanks, hc]

theorem exists_blanks (cs : List Char) :
    ∃ b, (∀ c ∈ b, isBlank c = true) ∧ cs = b ++ dropBlanks cs :=
  ⟨cs.takeWhile isBlank, List.all_eq_true.1 List.all_takeWhile, List.takeWhile_append_dropWhile.symm⟩

private theorem dropWhile_eq_self {p : Char → Bool} {cs : List Char} (h : ∀ c ∈ cs.head?, p c = false) :
    cs.dropWhile p = cs := by
  cases cs with
  | nil => rfl
  | cons c cs => simp [h c rfl]

theorem stripWhile_surrounded {p : Char → Bool} {b b' : List Char} (hb : ∀ c ∈ b, p c = true)
    (hb' : ∀ c ∈ b', p c = true) (cs : List Char) : stripWhile p (b ++ (cs ++ b')) = stripWhile p cs := by
  have hnil : (b' ++ []).dropWhile p = [] := List.dropWhile_append_of_pos hb'
  rw [List.append_nil] at hnil
  unfold stripWhile
  rw [List.dropWhile_append_of_pos hb, List.dropWhile_append]
  split
  · rename_i hempty
    rw [List.isEmpty_iff.mp hempty, hnil]
  · rw [List.reverse_append, List.dropWhile_append_of_pos (by simpa using hb')]

theorem stripWhile_eq_self {p : Char → Bool} {cs : List Char} (hfirst : ∀ c ∈ cs.head?, p c = false)
    (hlast : ∀ c ∈ cs.getLast?, p c = false) : stripWhile p cs = cs := by
  rw [stripWhile, dropWhile_eq_self hfirst, dropWhile_eq_self, List.reverse_reverse]
  rwa [List.head?_reverse]

/-- Stripping takes off just what surrounds a text that neither starts nor ends in a `p`-character. -/
theorem stripWhile_append {p : Char → Bool} {b core b' : List Char} (hb : ∀ c ∈ b, p c = true)
    (hb' : ∀ c ∈ b', p c = true) (hfirst : ∀ c ∈ core.head?, p c = false)
    (hlast : ∀ c ∈ core.getLast?, p c = false) : stripWhile p (b ++ (core ++ b')) = core := by
  rw [stripWhile_surrounded hb hb', stripWhile_eq_self hfirst hlast]

theorem exists_strip (p : Char → Bool) (cs : List Char) :
    ∃ b b', (∀ c ∈ b, p c = true) ∧ (∀ c ∈ b', p c = true) ∧ cs = b ++ (stripWhile p cs ++ b') := by
  refine ⟨cs.takeWhile p, ((cs.dropWhile p).reverse.takeWhile p).reverse,
    List.all_eq_true.1 List.all_takeWhile, ?_, ?_⟩
  · intro c hc
    exact List.all_eq_true.1 List.all_takeWhile c (List.mem_reverse.1 hc)
  · unfold stripWhile
    rw [← List.reverse_append, List.takeWhile_append_dropWhile, List.reverse_reverse,
      List.takeWhile_append_dropWhile]

private theorem head?_dropWhile_fails {p : Char → Bool} (cs : List Char) {c : Char}
    (hc : (cs.dropWhile p).head? = some c) : p c = false := by
  have hnot := List.head?_dropWhile_not p cs
  rwa [hc] at hnot

theorem ends_stripWhile (p : Char → Bool) (cs : List Char) :
    (∀ c ∈ (stripWhile p cs).head?, p c = false) ∧ ∀ c ∈ (stripWhile p cs).getLast?, p c = false := by
  constructor
  · intro c hc
    have hprefix : stripWhile p cs <+: cs.dropWhile p := by
      rw [← List.reverse_suffix, stripWhile, List.reverse_reverse]
      exact List.dropWhile_suffix p
    obtain ⟨rest, hrest⟩ := hprefix
    apply head?_dropWhile_fails cs
    rw [← hrest, List.head?_append, Option.mem_def.mp hc, Option.some_or]
  · intro c hc
    rw [stripWhile, List.getLast?_reverse] at hc
    exact head?_dropWhile_fails _ hc

theorem stripWhile_stripWhile (p : Char → Bool) (cs : List Char) :
    stripWhile p (stripWhile p cs) = stripWhile p cs :=
  stripWhile_eq_self (ends_stripWhile p cs).1 (ends_stripWhile p cs).2

example : isBlank '\u200b' = false := by decide
example : trim "\u00a0 a\tb \u001f" = "a\tb" := by decide +kernel

end DocFetch.Text
