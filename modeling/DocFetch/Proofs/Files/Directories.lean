import DocFetch.Proofs.Files.Contents

/-! # Directories that were made

They need not be made again, and files in them have their places.
-/

namespace DocFetch.FileTree

variable {t t' u : FileTree} {above : Path} {names : List String}

theorem isDirectory_of_makeDirectoriesFrom (h : t.makeDirectoriesFrom above names = .ok t') {q : Path}
    (hq : t.isDirectory q = true) : t'.isDirectory q = true := by
  rw [isDirectory_iff] at hq ⊢
  rcases makeDirectoriesFrom_eq_ok h q with hsame | ⟨hnone, -⟩
  · rw [hsame, hq]
  · rw [hq] at hnone
    cases hnone

theorem makeDirectoriesFrom_again (h : t.makeDirectoriesFrom above names = .ok t')
    (hmono : ∀ q, t'.isDirectory q = true → u.isDirectory q = true) :
    u.makeDirectoriesFrom above names = .ok u := by
  induction names generalizing t above with
  | nil => rfl
  | cons n rest ih =>
    unfold makeDirectoriesFrom at h ⊢
    dsimp only at h ⊢
    by_cases hdots : n = ".."
    · rw [if_pos hdots] at h ⊢
      exact ih h
    rw [if_neg hdots] at h ⊢
    by_cases hlong : tooLong n = true
    · rw [if_pos hlong] at h
      cases h
    rw [if_neg hlong] at h ⊢
    -- whichever way the directory came about, it is there now
    have hhere : t'.isDirectory (above.child n) = true → u.get? (above.child n) = some .directory :=
      fun hmade => isDirectory_iff.mp (hmono _ hmade)
    split at h
    · rename_i hnode
      rw [hhere (isDirectory_of_makeDirectoriesFrom h (isDirectory_iff.mpr hnode))]
      exact ih h
    · cases h
    · rename_i hnone
      have hput : (t.put (above.child n) .directory).isDirectory (above.child n) = true :=
        isDirectory_iff.mpr (get?_put_self t (by simp [isDirectory, hnone]) _)
      rw [hhere (isDirectory_of_makeDirectoriesFrom h hput)]
      exact ih h

theorem makeDirectories_again {p : Path} (h : t.makeDirectories p = .ok t')
    (hmono : ∀ q, t'.isDirectory q = true → u.isDirectory q = true) : u.makeDirectories p = .ok u := by
  unfold makeDirectories at h ⊢
  split at h
  · cases h
  · rename_i hnul
    rw [if_neg hnul]
    exact makeDirectoriesFrom_again h hmono

/-- The names of directories that were made lead to the one in which a last name is looked for. -/
theorem exists_walk_last (h : t.makeDirectoriesFrom above names = .ok t) :
    ∃ q, ∀ name, t.walk above (names ++ [name]) = t.walk q [name] := by
  induction names generalizing above with
  | nil => exact ⟨above, fun _ => rfl⟩
  | cons n rest ih =>
    unfold makeDirectoriesFrom at h
    dsimp only at h
    by_cases hn : n = ".."
    · rw [if_pos hn] at h
      obtain ⟨q, hq⟩ := ih h
      refine ⟨q, fun name => ?_⟩
      rw [List.cons_append, walk, if_pos hn]
      exact hq name
    rw [if_neg hn] at h
    by_cases hlong : tooLong n = true
    · rw [if_pos hlong] at h
      cases h
    rw [if_neg hlong] at h
    split at h
    · rename_i hdirectory
      obtain ⟨q, hq⟩ := ih h
      refine ⟨q, fun name => ?_⟩
      have hmore : (rest ++ [name]).isEmpty = false := by simp
      rw [List.cons_append, walk, if_neg hn, if_neg hlong, hmore, if_neg Bool.false_ne_true, hdirectory]
      exact hq name
    · cases h
    · rename_i hnone
      have hput : (t.put (above.child n) .directory).isDirectory (above.child n) = true :=
        isDirectory_iff.mpr (get?_put_self t (by simp [isDirectory, hnone]) _)
      have hthere := isDirectory_iff.mp (isDirectory_of_makeDirectoriesFrom h hput)
      rw [hnone] at hthere
      cases hthere

theorem exists_locate_last {p : Path} (h : t.makeDirectories p = .ok t) {name : String}
    (hnul : '\x00' ∉ name.toList) : ∃ q, t.locate (p.child name) = t.walk q [name] := by
  unfold makeDirectories at h
  split at h
  · cases h
  · rename_i hclean
    obtain ⟨q, hq⟩ := exists_walk_last h
    have hchild : hasNul (p.child name) = false := by
      have habove : (p.parts.any fun n => n.toList.any (· = '\x00')) = false := by simpa [hasNul] using hclean
      have hname : name.toList.any (· = '\x00') = false := by
        rw [List.any_eq_false]
        intro c hc
        simpa using fun hc' : c = '\x00' => hnul (hc' ▸ hc)
      rw [hasNul, Path.child, List.any_append, habove, List.any_cons, hname]
      rfl
    refine ⟨q, ?_⟩
    rw [locate, hchild]
    exact hq name

/-- A short name in a directory that was made leads to its place. -/
theorem locate_child {p : Path} (h : t.makeDirectories p = .ok t) {name : String} (hdots : name ≠ "..")
    (hshort : tooLong name = false) (hnul : '\x00' ∉ name.toList) :
    t.locate (p.child name) = .ok (p.child name).resolve := by
  obtain ⟨q, hlast⟩ := exists_locate_last h hnul
  have hplace : t.locate (p.child name) = .ok (q.child name) :=
    hlast.trans (walk_cons_eq_ok.mpr (.inr ⟨hdots, hshort, .inl ⟨rfl, rfl⟩⟩))
  rw [hplace, locate_eq_ok hplace]

theorem locate_child_of_tooLong {p : Path} (h : t.makeDirectories p = .ok t) {name : String} (hdots : name ≠ "..")
    (hlong : tooLong name = true) (hnul : '\x00' ∉ name.toList) :
    t.locate (p.child name) = .error (.fault .system) := by
  obtain ⟨q, hlast⟩ := exists_locate_last h hnul
  rw [hlast, walk, if_neg hdots, if_pos hlong]

theorem short_of_walk {name : String} (hdots : name ≠ "..") {q : Path}
    (h : t.walk above (names ++ [name]) = .ok q) : tooLong name = false := by
  induction names generalizing above with
  | nil =>
    rcases walk_cons_eq_ok.mp h with ⟨hn, -⟩ | ⟨-, hshort, -⟩
    · exact absurd hn hdots
    · exact hshort
  | cons n rest ih =>
    rcases walk_cons_eq_ok.mp h with ⟨-, hrest⟩ | ⟨-, -, ⟨hempty, -⟩ | ⟨-, -, hrest⟩⟩
    · exact ih hrest
    · simp at hempty
    · exact ih hrest

theorem short_of_locate_child {p q : Path} {name : String} (hdots : name ≠ "..")
    (h : t.locate (p.child name) = .ok q) : tooLong name = false := by
  unfold locate at h
  split at h
  · cases h
  · exact short_of_walk hdots h

end DocFetch.FileTree
